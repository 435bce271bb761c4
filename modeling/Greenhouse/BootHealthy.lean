import Greenhouse.BootRecovery
import Greenhouse.TemporalRuns

/-!
# Boots that are all marked good

A started slot gets back the attempt that it has used up. Whether a slot has
attempts left is then the same before and after the boot, and so is the choice.
Only the first pass of all can find no slot; it resets.
-/

namespace Greenhouse.BootHealthy

open BootNumbers SpacedWords BootEnvironment BootScript BootRecovery TemporalRuns

/-- A device between two passes of the boot script. -/
structure Device where
  /-- The content of uboot.env, if the file exists. -/
  stored : Option Env
  /-- What each pass so far has selected, in order; none is a reset. -/
  selections : List (Option Slot)

/-- The environment that the next pass would load. -/
def Device.env (builtin : Env) (d : Device) : Env := d.stored.getD builtin

/-- The storage when the slot of a started kernel has been marked good. -/
def markedGood (builtin : Env) (b : Board) : Option Env :=
  match b.started,b.selected with
  | some _,some x => some ((b.stored.getD builtin).set x.left "3")
  | _,_ => b.stored

/-- One pass of the boot script; a started slot is marked good before the next
reboot. -/
def step (u : Numbers) (sh : Expansion) (builtin : Env) (d : Device) (firmware : Option String) :
    Option Device :=
  let b := pass u sh firmware builtin d.stored
  some ⟨markedGood builtin b,d.selections++[b.selected]⟩

/-- All passes select one slot, apart from a reset at the very first one. -/
def Steady (d : Device) : Prop :=
  ∃ x,(∀ s∈d.selections,s=none ∨ s=some x) ∧ none∉d.selections.tail

/-- A slot without attempts left in front of the slot that boots is not selected
by any later pass, and has no attempts left after it. -/
def RolledBackStays (u : Numbers) (sh : Expansion) (builtin : Env) (d : Device)
    (firmwares : List (Option String)) : Prop :=
  ∀ x y : Slot,(some x∈d.selections ∨ (attempts (d.env builtin)).choice u=some x) →
    [y.name,x.name].Sublist (words (attempts (d.env builtin)).order) →
    (attempts (d.env builtin)).left y="0" →
    EachState (step u sh builtin)
      (fun t => some y∉t.selections.drop d.selections.length ∧
        (attempts (t.env builtin)).left y="0") d firmwares

variable {u : Numbers} {sh : Expansion} {builtin : Env} {d d' : Device} {firmware : Option String}

/-- The choice depends only on the order and on which slots have attempts left. -/
theorem choice_congr {v w : Attempts} (ho : v.order=w.order)
    (hl : ∀ x,u.positive (v.left x)=u.positive (w.left x)) : v.choice u=w.choice u := by
  have hb : v.bootable u=w.bootable u := by
    funext word
    rw [Attempts.bootable,Attempts.bootable]
    exact congrArg (fun p => (slotNamed word).filter p) (funext hl)
  rw [Attempts.choice,Attempts.choice,ho,hb]

/-- A pass with a choice leaves the attempts alone, apart from those of the
chosen slot, which is marked good. -/
theorem step_of_choice (hsh : SeesWords sh (d.env builtin)) {x : Slot}
    (hc : (attempts (d.env builtin)).choice u=some x) (h : step u sh builtin d firmware=some d') :
    d'.selections=d.selections++[some x] ∧ attempts (d'.env builtin)=
      ⟨(attempts (d.env builtin)).order,
        fun y => if y=x then "3" else (attempts (d.env builtin)).left y⟩ := by
  cases h
  have hfinished := finished_pass u sh firmware builtin d.stored
  have hstarted := hfinished.selection.2
  have hx : (pass u sh firmware builtin d.stored).selected=some x := (hsh.selected u firmware).trans hc
  rw [hx,Option.isSome_some] at hstarted
  obtain ⟨e,he⟩ := Option.isSome_iff_exists.mp hstarted
  refine ⟨by rw [hx],?_⟩
  obtain ⟨_,⟨y,hy,hspend⟩|⟨hnone,_⟩⟩ := hfinished.attempts_stored builtin
  · rw [hx,Option.some.injEq] at hy
    subst hy
    have hmarked : markedGood builtin (pass u sh firmware builtin d.stored)=
        some (((pass u sh firmware builtin d.stored).stored.getD builtin).set x.left "3") := by
      rw [markedGood,he,hx]
    have hset := attempts_set_left ((pass u sh firmware builtin d.stored).stored.getD builtin) x "3"
      (by decide)
    dsimp only [Device.env]
    rw [hmarked,Option.getD_some,hset,hspend]
    refine Attempts.ext rfl (funext fun y => ?_)
    dsimp only [Attempts.spend]
    by_cases hyx : y=x
    · rw [if_pos hyx,if_pos hyx]
    · rw [if_neg hyx,if_neg hyx,if_neg hyx]
      rfl
  · rw [hx] at hnone
    cases hnone

/-- A pass without a choice gives the attempts back. -/
theorem step_of_no_choice (hsh : SeesWords sh (d.env builtin))
    (hc : (attempts (d.env builtin)).choice u=none) (h : step u sh builtin d firmware=some d') :
    d'.selections=d.selections++[none] ∧
      attempts (d'.env builtin)=(attempts (d.env builtin)).refill := by
  cases h
  have hnone : (pass u sh firmware builtin d.stored).selected=none :=
    (hsh.selected u firmware).trans hc
  have hmarked : markedGood builtin (pass u sh firmware builtin d.stored)=
      (pass u sh firmware builtin d.stored).stored := by
    unfold markedGood
    rw [hnone]
    cases (pass u sh firmware builtin d.stored).started <;> rfl
  refine ⟨by rw [hnone],?_⟩
  dsimp only [Device.env]
  rw [hmarked]
  exact attempts_after_reset hsh hc

/-- No boot changes what the loop sees. -/
theorem seesWords_step (hsh : SeesWords sh (d.env builtin))
    (h : step u sh builtin d firmware=some d') : SeesWords sh (d'.env builtin) := by
  cases h
  have hpass := hsh.pass u firmware
  dsimp only [Device.env]
  generalize pass u sh firmware builtin d.stored=b at hpass ⊢
  unfold markedGood
  split
  · exact hpass.congr (value_set_of_ne (by rename_i x _ _; cases x <;> decide))
  · exact hpass

/-- Every boot adds one entry to the selections. -/
theorem length_selections_step (h : step u sh builtin d firmware=some d') :
    d'.selections.length=d.selections.length+1 := by
  cases h
  exact List.length_append

/-- The invariant: before the first pass, or when one slot is the choice and
nothing else has been selected since the first pass. -/
structure Settled (u : Numbers) (sh : Expansion) (builtin : Env) (order : String) (d : Device) :
    Prop where
  seesWords : SeesWords sh (d.env builtin)
  order : (attempts (d.env builtin)).order=order
  settled : d.selections=[] ∨ ∃ x,(attempts (d.env builtin)).choice u=some x ∧
    (∀ s∈d.selections,s=none ∨ s=some x) ∧ none∉d.selections.tail

/-- Marking the chosen slot good keeps the choice. -/
theorem choice_marked {v : Attempts} {x : Slot} (h3 : u.positive "3"=true)
    (hc : v.choice u=some x) :
    (⟨v.order,fun y => if y=x then "3" else v.left y⟩ : Attempts).choice u=some x := by
  rw [←hc]
  refine choice_congr rfl fun y => ?_
  dsimp only
  by_cases hy : y=x
  · rw [if_pos hy,h3,hy,(choice_eq_some hc).2]
  · rw [if_neg hy]

/-- One pass keeps the invariant. -/
theorem Settled.step {order : String} (h3 : u.positive "3"=true)
    (hnames : ∃ x : Slot,x.name∈words order) (hd : Settled u sh builtin order d)
    (h : step u sh builtin d firmware=some d') : Settled u sh builtin order d' := by
  obtain ⟨hsh,horder,hsettled⟩ := hd
  have hsh' := seesWords_step hsh h
  cases hc : (attempts (d.env builtin)).choice u with
  | none =>
    obtain ⟨hselections,hattempts⟩ := step_of_no_choice hsh hc h
    rcases hsettled with hnil|⟨x,hx,_⟩
    · have hsome : ((attempts (d.env builtin)).refill.choice u).isSome=true :=
        (choice_refill_isSome_iff h3).mpr (horder ▸ hnames)
      obtain ⟨x,hx⟩ := Option.isSome_iff_exists.mp hsome
      rw [hnil,List.nil_append] at hselections
      refine ⟨hsh',by rw [hattempts]; exact horder,Or.inr ⟨x,by rw [hattempts]; exact hx,?_,?_⟩⟩
      · rw [hselections]
        exact fun s hs => Or.inl (List.mem_singleton.mp hs)
      · rw [hselections]
        exact List.not_mem_nil
    · rw [hc] at hx
      cases hx
  | some x =>
    obtain ⟨hselections,hattempts⟩ := step_of_choice hsh hc h
    refine ⟨hsh',by rw [hattempts]; exact horder,
      Or.inr ⟨x,by rw [hattempts]; exact choice_marked h3 hc,?_⟩⟩
    rw [hselections]
    rcases hsettled with hnil|⟨y,hy,hall,htail⟩
    · rw [hnil]
      exact ⟨fun s hs => Or.inr (List.mem_singleton.mp hs),List.not_mem_nil⟩
    · rw [hc,Option.some.injEq] at hy
      subst hy
      refine ⟨fun s hs => ?_,fun hs => ?_⟩
      · rcases List.mem_append.mp hs with hs|hs
        · exact hall s hs
        · exact Or.inr (List.mem_singleton.mp hs)
      · cases hd : d.selections with
        | nil =>
          rw [hd] at hs
          exact List.not_mem_nil hs
        | cons s rest =>
          rw [hd,List.cons_append,List.tail_cons] at hs
          rw [hd,List.tail_cons] at htail
          rcases List.mem_append.mp hs with hs|hs
          · exact htail hs
          · cases List.mem_singleton.mp hs

/-- The invariant gives the steady choice. -/
theorem Settled.steady {order : String} (h : Settled u sh builtin order d) : Steady d := by
  rcases h.settled with hnil|⟨x,_,hall,htail⟩
  · refine ⟨.a,?_⟩
    rw [hnil]
    exact ⟨fun _ hs => absurd hs List.not_mem_nil,List.not_mem_nil⟩
  · exact ⟨x,hall,htail⟩

/-- A slot that is selected under the invariant is the choice. -/
theorem Settled.choice {order : String} (h : Settled u sh builtin order d) {x : Slot}
    (hx : some x∈d.selections ∨ (attempts (d.env builtin)).choice u=some x) :
    (attempts (d.env builtin)).choice u=some x := by
  rcases hx with hx|hx
  · rcases h.settled with hnil|⟨y,hy,hall,_⟩
    · rw [hnil] at hx
      exact absurd hx List.not_mem_nil
    · rcases hall (some x) hx with hnone|hsome
      · cases hnone
      · rw [hsome]
        exact hy
  · exact hx

/-- While one slot is the choice, another one is not selected and keeps its
counter. -/
theorem eachState_unselected (h3 : u.positive "3"=true) {x y : Slot} (hne : y≠x) {left : String}
    (hsh : SeesWords sh (d.env builtin))
    (hc : (attempts (d.env builtin)).choice u=some x)
    (hleft : (attempts (d.env builtin)).left y=left) (firmwares : List (Option String)) :
    EachState (BootHealthy.step u sh builtin)
      (fun t => some y∉t.selections.drop d.selections.length ∧
        (attempts (t.env builtin)).left y=left) d firmwares := by
  refine globally_of_invariant (G:=fun _ _ _ => True)
    (I:=fun t => SeesWords sh (t.env builtin) ∧ (attempts (t.env builtin)).choice u=some x ∧
      (∃ later,t.selections=d.selections++later ∧ some y∉later) ∧
      (attempts (t.env builtin)).left y=left)
    (fun t firmware t' hi _ h => ?_) (fun t _ hi _ => ?_)
    ⟨hsh,hc,⟨[],(List.append_nil _).symm,List.not_mem_nil⟩,hleft⟩ (EachStep.trivial d firmwares)
  · obtain ⟨hsees,hchoice,⟨later,hlater,hnot⟩,hl⟩ := hi
    obtain ⟨hselections,hattempts⟩ := step_of_choice hsees hchoice h
    refine ⟨seesWords_step hsees h,by rw [hattempts]; exact choice_marked h3 hchoice,⟨later++[some x],?_,fun hm => ?_⟩,?_⟩
    · rw [hselections,hlater,List.append_assoc]
    · rcases List.mem_append.mp hm with hm|hm
      · exact hnot hm
      · exact hne (Option.some.inj (List.mem_singleton.mp hm))
    · rw [hattempts]
      exact (if_neg hne).trans hl
  · obtain ⟨_,_,⟨later,hlater,hnot⟩,hl⟩ := hi
    refine ⟨?_,hl⟩
    rw [hlater,List.drop_left]
    exact hnot

/-- Along every sequence of boots that are all marked good, from any order of
the two slots and any counters, there is one selection for each pass, the choice
is steady and a slot that has been rolled back stays so. -/
theorem steady_of_markedGood (sh : Expansion) (builtin : Env) (stored : Option Env)
    (hsh : SeesWords sh (stored.getD builtin))
    (horder : (words (attempts (stored.getD builtin)).order).Perm ["A","B"])
    (firmwares : List (Option String)) :
    Globally (step uboot sh builtin)
      (fun d rest => d.selections.length+rest.length=firmwares.length ∧
        Steady d ∧ RolledBackStays uboot sh builtin d rest) ⟨stored,[]⟩ firmwares := by
  have h3 : uboot.positive "3"=true := by decide
  have hnames : ∃ x : Slot,x.name∈words (attempts (stored.getD builtin)).order :=
    ⟨.a,horder.mem_iff.mpr (by decide)⟩
  have hnodup : (words (attempts (stored.getD builtin)).order).Nodup :=
    horder.nodup_iff.mpr (by decide)
  have hcounted : Globally (step uboot sh builtin)
      (fun d rest => d.selections.length+rest.length=firmwares.length) ⟨stored,[]⟩ firmwares :=
    globally_counted (fun _ _ _ h => length_selections_step h) (Nat.zero_add _)
  refine hcounted.and ?_
  refine globally_of_invariant (G:=fun _ _ _ => True)
    (I:=Settled uboot sh builtin (attempts (stored.getD builtin)).order)
    (fun d _ _ hi _ hs => hi.step h3 hnames hs) (fun d rest hi _ => ⟨hi.steady,?_⟩)
    ⟨hsh,rfl,Or.inl rfl⟩ (EachStep.trivial _ firmwares)
  intro x y hx hfront hleft
  have hne : y≠x := by
    rintro rfl
    rw [hi.order] at hfront
    exact absurd (hfront.nodup hnodup) (by simp only [List.nodup_cons,List.mem_singleton,
      not_true_eq_false,false_and,not_false_eq_true])
  exact eachState_unselected h3 hne hi.seesWords (hi.choice hx) hleft rest

/-- Three good boots behind an exhausted slot A. -/
theorem steady_of_markedGood_rolledBack :
    Globally (step uboot environmentFirst Env.empty)
      (fun d rest => d.selections.length+rest.length=3 ∧
        Steady d ∧ RolledBackStays uboot environmentFirst Env.empty d rest)
      ⟨some (Env.empty.set "BOOT_A_LEFT" "0"),[]⟩ [none,none,none] :=
  steady_of_markedGood environmentFirst Env.empty (some (Env.empty.set "BOOT_A_LEFT" "0"))
    (environmentFirst_spec.seesWords (by decide)) (List.Perm.of_eq (by decide +kernel)) [none,none,none]

example : (run (step uboot environmentFirst Env.empty) ⟨some (Env.empty.set "BOOT_A_LEFT" "0"),[]⟩
    [none,none,none]).map Device.selections=some [some .b,some .b,some .b] := by
  decide +kernel

end Greenhouse.BootHealthy
