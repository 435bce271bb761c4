import Greenhouse.ShellText

/-!
# Edits that are made line by line

A text is its lines together with whether the last one is ended. An edit that
makes one or more lines of each line keeps the end of the text when it makes one
line of the last one, and ends the text otherwise. So such edits compose line by
line, and two of them agree when they agree on every line.
-/

namespace Greenhouse.LineEditing

open ShellText

variable {f g : Text → List Text} {s t : Text}

/-- Every line of the text becomes one line or more, and these are empty only
when it was. -/
def KeepsLines (f : Text → List Text) (t : Text) : Prop :=
  ∀ l∈lines t,f l≠[] ∧ ∀ m∈f l,'\n'∉m ∧ (l≠[] → m≠[])

/-- The last line becomes one line. -/
def lastStays (f : Text → List Text) (t : Text) : Bool :=
  decide (((lines t).getLast?.map f).map List.length=some 1)

/-- Lines and their end make up the text. -/
theorem text_ext (hl : lines s=lines t) (hu : unended s=unended t) : s=t := by
  have hs := unlines_lines s
  have ht := unlines_lines t
  rw [hl,hu] at hs
  have hsame := hs.symm.trans ht
  split at hsame
  · exact (List.append_left_inj _).mp hsame
  · exact hsame

/-- Written lines are ended. -/
theorem unended_unlines (ls : List Text) : unended (unlines ls)=false := by
  refine decide_eq_false fun hand => ?_
  obtain ⟨hne,hlast⟩ := hand
  rcases ls.eq_nil_or_concat with rfl|⟨init,l,rfl⟩
  · exact hne rfl
  · rw [List.concat_eq_append,unlines,List.flatMap_append,List.flatMap_singleton,←List.append_assoc,
      List.getLast?_concat] at hlast
    exact hlast rfl

/-- The text in front of a last line that is not ended. -/
theorem unended_append {l : Text} (ls : List Text) (hne : l≠[]) (hl : '\n'∉l) :
    unended (unlines ls++l)=true := by
  refine decide_eq_true ⟨List.append_ne_nil_of_right_ne_nil _ hne,fun hlast => hl ?_⟩
  rw [List.getLast?_append,List.getLast?_eq_some_getLast hne] at hlast
  have hend : l.getLast hne= '\n' := Option.some.inj hlast
  rw [←hend]
  exact List.getLast_mem hne

/-- The lines and the end of an edited text. -/
theorem edited_spec (h : KeepsLines f t) :
    lines (edited f t)=(lines t).flatMap f ∧ unended (edited f t)=(unended t && lastStays f t) := by
  have hout : ∀ m∈(lines t).flatMap f,'\n'∉m := by
    intro m hm
    obtain ⟨l,hl,hml⟩ := List.mem_flatMap.mp hm
    exact ((h l hl).2 m hml).1
  by_cases hcut : unended t=true ∧ ((lines t).getLast?.map f).map List.length=some 1
  · obtain ⟨out,hout',hone⟩ := Option.map_eq_some_iff.mp hcut.2
    obtain ⟨l,hl,rfl⟩ := Option.map_eq_some_iff.mp hout'
    obtain ⟨m,hm⟩ := List.length_eq_one_iff.mp hone
    obtain ⟨init,hinit⟩ := List.getLast?_eq_some_iff.mp hl
    have hlines : (lines t).flatMap f=init.flatMap f++[m] := by
      rw [hinit,List.flatMap_append,List.flatMap_singleton,hm]
    have hfree : ∀ x∈init.flatMap f++[m],'\n'∉x := hlines ▸ hout
    have hedited : edited f t=unlines (init.flatMap f)++m := by
      rw [edited,if_pos hcut,hlines,unlines,List.flatMap_append,List.flatMap_singleton,
        ←List.append_assoc]
      exact List.dropLast_concat
    have hm' : '\n'∉m := hfree m (List.mem_append_right _ (List.mem_singleton_self m))
    have hne : m≠[] := ((h l (List.mem_of_getLast? hl)).2 m (hm ▸ List.mem_singleton_self m)).2
      (ne_nil_of_unended hcut.1 hl)
    rw [hedited,hlines,lines_unlines_append _ fun x hx => hfree x (List.mem_append_left _ hx),
      lines_of_notMem hm' hne,unended_append _ hne hm',hcut.1,lastStays,decide_eq_true hcut.2]
    exact ⟨rfl,rfl⟩
  · have hboth : (unended t && lastStays f t)=false := by
      refine eq_false_of_ne_true fun hand => hcut ?_
      obtain ⟨hu,hl⟩ := Bool.and_eq_true_iff.mp hand
      exact ⟨hu,of_decide_eq_true hl⟩
    rw [edited,if_neg hcut,lines_unlines hout,unended_unlines,hboth]
    exact ⟨rfl,rfl⟩

/-- The lines and the end of a text where each line becomes one line. -/
theorem edited_map_spec {h : Text → Text} (hh : KeepsLines (fun l => [h l]) t) :
    lines (edited (fun l => [h l]) t)=(lines t).map h ∧
      unended (edited (fun l => [h l]) t)=unended t := by
  obtain ⟨hlines,hend⟩ := edited_spec hh
  refine ⟨hlines.trans List.map_eq_flatMap.symm,?_⟩
  rw [hend]
  cases hu : unended t with
  | false => rfl
  | true =>
    have hne : lines t≠[] := fun hnil => (of_decide_eq_true hu).1 (lines_eq_nil_iff.mp hnil)
    rw [lastStays,List.getLast?_eq_some_getLast hne]
    rfl

/-- The last line of an edited text. -/
theorem getLast?_flatMap (h : KeepsLines f t) :
    ((lines t).flatMap f).getLast? =(lines t).getLast?.bind fun l => (f l).getLast? := by
  rcases (lines t).eq_nil_or_concat with hnil|⟨init,l,hl⟩
  · rw [hnil]
    rfl
  · rw [List.concat_eq_append] at hl
    have hmem : l∈lines t := by
      rw [hl]
      exact List.mem_append_right _ (List.mem_singleton_self l)
    rw [hl,List.flatMap_append,List.flatMap_singleton,List.getLast?_append,List.getLast?_concat,
      Option.bind_some,List.getLast?_eq_some_getLast (h l hmem).1]
    rfl

/-- One edit after the other is one edit. -/
theorem edited_edited (hf : KeepsLines f t) (hg : KeepsLines g (edited f t)) :
    edited g (edited f t)=edited (fun l => (f l).flatMap g) t := by
  obtain ⟨hlines,hend⟩ := edited_spec hf
  obtain ⟨hlines',hend'⟩ := edited_spec hg
  have hmem : ∀ l∈lines t,∀ m∈f l,m∈lines (edited f t) := by
    intro l hl m hm
    rw [hlines]
    exact List.mem_flatMap.mpr ⟨l,hl,hm⟩
  have hboth : KeepsLines (fun l => (f l).flatMap g) t := by
    intro l hl
    constructor
    · obtain ⟨m,hm⟩ := List.exists_mem_of_ne_nil _ (hf l hl).1
      obtain ⟨x,hx⟩ := List.exists_mem_of_ne_nil _ (hg m (hmem l hl m hm)).1
      exact List.ne_nil_of_mem (List.mem_flatMap.mpr ⟨m,hm,hx⟩)
    · intro x hx
      obtain ⟨m,hm,hxm⟩ := List.mem_flatMap.mp hx
      have hx' := (hg m (hmem l hl m hm)).2 x hxm
      exact ⟨hx'.1,fun hne => hx'.2 (((hf l hl).2 m hm).2 hne)⟩
  obtain ⟨hlines'',hend''⟩ := edited_spec hboth
  refine text_ext ?_ ?_
  · rw [hlines',hlines,hlines'',List.flatMap_assoc]
  · have hstays : (lastStays f t && lastStays g (edited f t))=
        lastStays (fun l => (f l).flatMap g) t := by
      rw [lastStays,lastStays,lastStays,hlines,getLast?_flatMap hf]
      cases hl : (lines t).getLast? with
      | none => rfl
      | some l =>
        have hlt : l∈lines t := List.mem_of_getLast? hl
        have hpos : ∀ m∈f l,1 ≤ (g m).length := fun m hm =>
          List.length_pos_iff.mpr (hg m (hmem l hlt m hm)).1
        have hne := (hf l hlt).1
        cases hfl : f l with
        | nil => exact absurd hfl hne
        | cons m ms =>
          rw [hfl] at hpos
          cases ms with
          | nil =>
            simp only [Option.map_some,Option.bind_some,List.getLast?_singleton,List.length_singleton,
              List.flatMap_singleton,hfl,decide_true,Bool.true_and]
          | cons m' ms =>
            have hm := hpos m List.mem_cons_self
            have hm' := hpos m' (List.mem_cons_of_mem _ List.mem_cons_self)
            have hlong : ¬((m::m'::ms).flatMap g).length=1 := by
              rw [List.flatMap_cons,List.flatMap_cons,List.length_append,List.length_append]
              omega
            have hlong' : ¬(m::m'::ms).length=1 := by
              rw [List.length_cons,List.length_cons]
              omega
            simp only [Option.map_some,hfl,Option.some.injEq,hlong,hlong',decide_false,Bool.false_and]
    rw [hend',hend,hend'',Bool.and_assoc,hstays]

/-- A line in front of a text does not change its end. -/
theorem unended_append_cons (l t : Text) : unended (l++ '\n'::t)=unended t := by
  rcases t.eq_nil_or_concat with rfl|⟨init,c,rfl⟩
  · refine decide_eq_false fun hand => hand.2 ?_
    rw [List.getLast?_concat]
  · rw [unended,unended,List.concat_eq_append,←List.cons_append,←List.append_assoc,
      List.getLast?_concat,List.getLast?_concat]
    exact decide_eq_decide.mpr (and_congr_left fun _ =>
      iff_of_true (List.concat_ne_nil c _) (List.concat_ne_nil c init))

/-- A text is empty, or its last line, or a line in front of a text. -/
theorem induction_on_lines {p : Text → Prop} (nil : p [])
    (last : ∀ l,l≠[] → '\n'∉l → p l) (line : ∀ l t,'\n'∉l → p t → p (l++ '\n'::t)) (t : Text) :
    p t := by
  have hrun : ∀ ls : List Text,(∀ l∈ls,'\n'∉l) → ∀ m : Text,'\n'∉m → p (unlines ls++m) := by
    intro ls hls m hm
    induction ls with
    | nil =>
      cases m with
      | nil => exact nil
      | cons c m => exact last _ (List.cons_ne_nil c m) hm
    | cons l ls ih =>
      rw [unlines,List.flatMap_cons,List.append_assoc,List.append_assoc]
      exact line l _ (hls l List.mem_cons_self) (ih fun x hx => hls x (List.mem_cons_of_mem _ hx))
  have ht := unlines_lines t
  cases hu : unended t with
  | false =>
    rw [hu,if_neg Bool.false_ne_true] at ht
    rw [←ht,←List.append_nil (unlines (lines t))]
    exact hrun _ (fun l hl => newline_notMem_of_mem_lines hl) [] List.not_mem_nil
  | true =>
    rw [hu,if_pos rfl] at ht
    have hne : lines t≠[] := fun hnil => (of_decide_eq_true hu).1 (lines_eq_nil_iff.mp hnil)
    obtain ⟨init,l,hl⟩ := (lines t).eq_nil_or_concat.resolve_left hne
    rw [List.concat_eq_append] at hl
    rw [hl,unlines,List.flatMap_append,List.flatMap_singleton,←List.append_assoc] at ht
    have hlines : ∀ x∈init++[l],'\n'∉x := fun x hx => newline_notMem_of_mem_lines (hl ▸ hx)
    rw [←(List.append_left_inj _).mp ht]
    exact hrun init (fun x hx => hlines x (List.mem_append_left _ hx)) l
      (hlines l (List.mem_append_right _ (List.mem_singleton_self l)))

/-- Edits that agree on every line agree. -/
theorem edited_congr (h : ∀ l∈lines t,f l=g l) : edited f t=edited g t := by
  have hflat : (lines t).flatMap f=(lines t).flatMap g := List.flatMap_congr h
  have hlast : (lines t).getLast?.map f=(lines t).getLast?.map g :=
    Option.map_congr fun l hl => h l (List.mem_of_getLast? hl)
  rw [edited,edited,hflat,hlast]

end Greenhouse.LineEditing
