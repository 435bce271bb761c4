import Greenhouse.SpacedWords
import Mathlib.Data.List.DropRight
import Mathlib.Data.List.TakeWhile

/-!
# Texts in a shell script

A text is the list of its characters. The tools read it line by line: some
lines are kept, or each line is changed. A command substitution drops the
newlines at the end. A line falls into fields at its blanks. A file is edited
in place line by line, and keeps its missing last newline.
-/

namespace Greenhouse.ShellText

open SpacedWords

/-- A text as its characters. -/
abbrev Text := List Char

/-- The lines of a text without their newlines; the last line may lack one. -/
def lines : Text → List Text
  | [] => []
  | c::t =>
    if c= '\n' then []::lines t
    else
      match lines t with
      | [] => [[c]]
      | l::ls => (c::l)::ls

/-- Write lines, each ended by a newline. -/
def unlines (ls : List Text) : Text := ls.flatMap fun l => l++['\n']

/-- Keep the lines that satisfy a condition. -/
def keepLines (p : Text → Bool) (t : Text) : Text := unlines ((lines t).filter p)

/-- Change each line. -/
def mapLines (f : Text → Text) (t : Text) : Text := unlines ((lines t).map f)

/-- The last line has no newline. -/
def unended (t : Text) : Bool := decide (t≠[] ∧ t.getLast?≠some '\n')

/-- Write the lines that each line is edited to. A missing last newline is left
out again when the last line is still the last one. -/
def edited (f : Text → List Text) (t : Text) : Text :=
  let output := unlines ((lines t).flatMap f)
  if unended t=true ∧ (((lines t).getLast?.map f).map List.length)=some 1 then output.dropLast
  else output

/-- Delete every occurrence of a character. -/
def delete (c : Char) (t : Text) : Text := t.filter fun x => decide (x≠c)

/-- The value of a command substitution: the output without its last newlines. -/
def substitution (t : Text) : Text := t.rdropWhile fun c => decide (c= '\n')

/-- What echo prints. A first hyphen and backslashes leave it to the shell. -/
def echo (shell : Text → Text) (t : Text) : Text :=
  if t.head?=some '-' ∨ '\\'∈t then shell t else t++['\n']

/-- The characters between fields. -/
def isBlank (c : Char) : Bool := decide (c= ' ' ∨ c= '\t' ∨ c= '\n')

/-- The fields of a line, which its blanks separate. -/
def fields (l : Text) : List Text := (l.splitOnP isBlank).filter fun w => !w.isEmpty

/-- The field with this number, counted from one; empty when there is none. -/
def field (n : ℕ) (l : Text) : Text := (fields l).getD (n-1) []

/-- The line begins with a text, in either case. -/
def beginsIgnoringCase (start l : Text) : Bool :=
  decide ((l.take start.length).map Char.toLower=start.map Char.toLower)

/-- A line is read up to its newline. -/
theorem lines_append_cons {l : Text} (t : Text) (h : '\n'∉l) : lines (l++ '\n'::t)=l::lines t := by
  induction l with
  | nil => rw [List.nil_append,lines,if_pos rfl]
  | cons c l ih =>
    rw [List.cons_append,lines,if_neg (fun he : c= '\n' => h (he ▸ List.mem_cons_self)),
      ih fun hm => h (List.mem_cons_of_mem _ hm)]

/-- Lines are read back in front of the text that follows them. -/
theorem lines_unlines_append {ls : List Text} (t : Text) (h : ∀ l∈ls,'\n'∉l) :
    lines (unlines ls++t)=ls++lines t := by
  induction ls with
  | nil => rfl
  | cons l ls ih =>
    rw [unlines,List.flatMap_cons,List.append_assoc,List.append_assoc,List.singleton_append,
      lines_append_cons _ (h l List.mem_cons_self)]
    exact congrArg (List.cons l) (ih fun m hm => h m (List.mem_cons_of_mem _ hm))

/-- Lines are read back from the text they are written to. -/
theorem lines_unlines {ls : List Text} (h : ∀ l∈ls,'\n'∉l) : lines (unlines ls)=ls := by
  have happend := lines_unlines_append [] h
  rwa [List.append_nil,lines,List.append_nil] at happend

/-- A text without newlines is one line, unless it is empty. -/
theorem lines_of_notMem {t : Text} (h : '\n'∉t) (hne : t≠[]) : lines t=[t] := by
  induction t with
  | nil => exact absurd rfl hne
  | cons c t ih =>
    obtain ⟨hc,ht⟩ := not_or.mp fun hm => h (List.mem_cons.mpr hm)
    rw [lines,if_neg (Ne.symm hc)]
    by_cases hnil : t=[]
    · rw [hnil]
      rfl
    · rw [ih ht hnil]

/-- Only the empty text has no lines. -/
theorem lines_eq_nil_iff {t : Text} : lines t=[] ↔ t=[] := by
  cases t with
  | nil => exact iff_of_true rfl rfl
  | cons c t =>
    refine iff_of_false (fun h => ?_) (List.cons_ne_nil c t)
    rw [lines] at h
    split at h
    · cases h
    · split at h <;> cases h

/-- A character in front of a text with characters does not change its end. -/
theorem unended_cons (c : Char) {t : Text} (h : t≠[]) : unended (c::t)=unended t := by
  rw [unended,unended,List.getLast?_cons,List.getLast?_eq_some_getLast h]
  simp only [ne_eq,reduceCtorEq,not_false_eq_true,true_and,h,Option.getD_some]

/-- The lines of a text make up the text, with a last newline. -/
theorem unlines_lines (t : Text) :
    unlines (lines t)=if unended t=true then t++['\n'] else t := by
  induction t with
  | nil => rfl
  | cons c t ih =>
    by_cases ht : t=[]
    · rw [ht,lines]
      by_cases hc : c= '\n'
      · rw [if_pos hc,hc]
        rfl
      · have hunended : unended [c]=true := decide_eq_true ⟨List.cons_ne_nil c [],by
          rw [List.getLast?_singleton]
          exact fun he => hc (Option.some.inj he)⟩
        rw [if_neg hc,if_pos hunended]
        rfl
    · have hcons : unlines (lines (c::t))=c::unlines (lines t) := by
        rw [lines]
        split
        · rename_i hc
          rw [hc]
          rfl
        · cases hl : lines t with
          | nil => exact absurd (lines_eq_nil_iff.mp hl) ht
          | cons l ls => rfl
      rw [hcons,ih,unended_cons c ht]
      split
      · rfl
      · rfl

/-- A line has no newline. -/
theorem newline_notMem_of_mem_lines {t l : Text} (h : l∈lines t) : '\n'∉l := by
  induction t generalizing l with
  | nil => exact absurd h List.not_mem_nil
  | cons c t ih =>
    rw [lines] at h
    split at h
    · rcases List.mem_cons.mp h with rfl|h
      · exact List.not_mem_nil
      · exact ih h
    · rename_i hc
      have hcons : ∀ m : Text,'\n'∉m → '\n'∉c::m := by
        intro m hm hn
        rcases List.mem_cons.mp hn with hn|hn
        · exact hc hn.symm
        · exact hm hn
      cases hl : lines t with
      | nil =>
        rw [hl] at h
        obtain rfl := List.mem_singleton.mp h
        exact hcons [] List.not_mem_nil
      | cons m ms =>
        rw [hl] at h ih
        rcases List.mem_cons.mp h with rfl|h
        · exact hcons m (ih List.mem_cons_self)
        · exact ih (List.mem_cons_of_mem _ h)

/-- The lines that are kept. -/
theorem lines_keepLines (p : Text → Bool) (t : Text) :
    lines (keepLines p t)=(lines t).filter p :=
  lines_unlines fun _ h => newline_notMem_of_mem_lines (List.mem_filter.mp h).1

/-- The changed lines. -/
theorem lines_mapLines {f : Text → Text} (t : Text) (hf : ∀ l,'\n'∉l → '\n'∉f l) :
    lines (mapLines f t)=(lines t).map f := by
  refine lines_unlines fun l h => ?_
  obtain ⟨m,hm,rfl⟩ := List.mem_map.mp h
  exact hf m (newline_notMem_of_mem_lines hm)

/-- The last line is not empty when it lacks its newline. -/
theorem ne_nil_of_unended {t l : Text} (h : unended t=true) (hl : (lines t).getLast? =some l) :
    l≠[] := by
  rintro rfl
  obtain ⟨hne,hlast⟩ := of_decide_eq_true h
  obtain ⟨init,hinit⟩ := List.getLast?_eq_some_iff.mp hl
  have ht := unlines_lines t
  rw [if_pos h,hinit,unlines,List.flatMap_append,List.flatMap_singleton,List.nil_append] at ht
  have hinit' : unlines init=t := (List.append_left_inj _).mp ht
  rcases init.eq_nil_or_concat with rfl|⟨ls,m,rfl⟩
  · exact hne hinit'.symm
  · rw [List.concat_eq_append,unlines,List.flatMap_append,List.flatMap_singleton,
      ←List.append_assoc] at hinit'
    rw [←hinit',List.getLast?_concat] at hlast
    exact hlast rfl

/-- An edit that leaves every line as it is leaves the text as it is. -/
theorem edited_eq_self {f : Text → List Text} {t : Text} (h : ∀ l∈lines t,f l=[l]) :
    edited f t=t := by
  have hlines : (lines t).flatMap f=lines t := by
    rw [List.flatMap_congr h]
    exact List.flatMap_singleton' _
  rw [edited,hlines,unlines_lines]
  by_cases hu : unended t=true
  · have hne : lines t≠[] := fun hnil => (of_decide_eq_true hu).1 (lines_eq_nil_iff.mp hnil)
    have hlast : ((lines t).getLast?.map f).map List.length=some 1 := by
      rw [List.getLast?_eq_some_getLast hne,Option.map_some,h _ (List.getLast_mem hne)]
      rfl
    rw [if_pos hu,if_pos ⟨hu,hlast⟩]
    exact List.dropLast_concat
  · rw [if_neg hu,if_neg fun hand => hu hand.1]

/-- The lines of an edited text. -/
theorem lines_edited {f : Text → List Text} (t : Text)
    (hf : ∀ l,'\n'∉l → ∀ m∈f l,'\n'∉m) (hne : ∀ l≠[],∀ m∈f l,m≠[]) :
    lines (edited f t)=(lines t).flatMap f := by
  have hout : ∀ m∈(lines t).flatMap f,'\n'∉m := by
    intro m hm
    obtain ⟨l,hl,hml⟩ := List.mem_flatMap.mp hm
    exact hf l (newline_notMem_of_mem_lines hl) m hml
  rw [edited]
  split
  · rename_i hcut
    obtain ⟨hunended,hlength⟩ := hcut
    obtain ⟨out,hout',hone⟩ := Option.map_eq_some_iff.mp hlength
    obtain ⟨l,hl,rfl⟩ := Option.map_eq_some_iff.mp hout'
    obtain ⟨m,hm⟩ := List.length_eq_one_iff.mp hone
    obtain ⟨init,hinit⟩ := List.getLast?_eq_some_iff.mp hl
    rw [hinit,List.flatMap_append,List.flatMap_singleton,hm] at hout ⊢
    have hdrop : (unlines (init.flatMap f++[m])).dropLast=unlines (init.flatMap f)++m := by
      rw [unlines,List.flatMap_append,List.flatMap_singleton,←List.append_assoc]
      exact List.dropLast_concat
    have hm' : m∈f l := hm ▸ List.mem_singleton_self m
    rw [hdrop,lines_unlines_append _ fun x hx => hout x (List.mem_append_left _ hx),
      lines_of_notMem (hout m (List.mem_append_right _ (List.mem_singleton_self m)))
        (hne l (ne_nil_of_unended hunended hl) m hm')]
  · exact lines_unlines hout

/-- A text without newlines is its own substitution. -/
theorem substitution_of_notMem {t : Text} (h : '\n'∉t) : substitution t=t := by
  refine List.rdropWhile_eq_self_iff.mpr fun hne hlast => h ?_
  rw [←of_decide_eq_true hlast]
  exact List.getLast_mem hne

/-- The substitution of one line is that line. -/
theorem substitution_line {t : Text} (h : '\n'∉t) : substitution (t++['\n'])=t := by
  have hlast : substitution (t++['\n'])=substitution t :=
    List.rdropWhile_concat_pos _ _ _ (decide_eq_true rfl)
  exact hlast.trans (substitution_of_notMem h)

/-- A text without the character is not changed by deleting it. -/
theorem delete_of_notMem {c : Char} {t : Text} (h : c∉t) : delete c t=t :=
  List.filter_eq_self.mpr fun _ hx => decide_eq_true fun he => h (he ▸ hx)

/-- Deletion goes through concatenation. -/
theorem delete_append (c : Char) (s t : Text) : delete c (s++t)=delete c s++delete c t :=
  List.filter_append _ _

/-- A blank separates fields. -/
theorem fields_append_cons {c : Char} (hc : isBlank c=true) (s t : Text) :
    fields (s++c::t)=fields s++fields t := by
  rw [fields,List.splitOnP_append_cons s t hc,List.filter_append]
  rfl

/-- A text without blanks is its only field. -/
theorem fields_of_noBlank {t : Text} (h : t.any isBlank=false) (hne : t≠[]) : fields t=[t] := by
  have hsplit : t.splitOnP isBlank=[t] :=
    List.splitOnP_eq_singleton fun c hc => eq_false_of_ne_true (List.any_eq_false.mp h c hc)
  rw [fields,hsplit,List.filter_cons,if_pos]
  · rfl
  · cases t with
    | nil => exact absurd rfl hne
    | cons c t => rfl

/-- A field has no blank. -/
theorem noBlank_of_mem_fields {t w : Text} (h : w∈fields t) : w.any isBlank=false :=
  List.any_eq_false.mpr fun c hc =>
    ne_true_of_eq_false (not_of_mem_splitOnP (List.mem_filter.mp h).1 c hc)

/-- A numbered field has no blank. -/
theorem noBlank_field (n : ℕ) (t : Text) : (field n t).any isBlank=false := by
  rw [field,List.getD_eq_getElem?_getD]
  cases hw : (fields t)[n-1]? with
  | none => rfl
  | some w => exact noBlank_of_mem_fields (List.mem_of_getElem? hw)

/-- A text without blanks has no newline. -/
theorem newline_notMem_of_noBlank {t : Text} (h : t.any isBlank=false) : '\n'∉t :=
  fun hn => List.any_eq_false.mp h '\n' hn rfl

end Greenhouse.ShellText
