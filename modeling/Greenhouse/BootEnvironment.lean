import Greenhouse.BootNumbers
import Greenhouse.SpacedWords

/-!
# The boot environment

Variables are texts, and an empty value is the same as no value. The update
system and the boot script share three of them: the slot order and one attempt
counter for each slot. Reading these with their defaults gives the attempts, on
which a slot choice is a function; nothing else in the environment matters to it.
-/

namespace Greenhouse.BootEnvironment

open BootNumbers SpacedWords

/-- The two root file system slots. -/
inductive Slot
  | a
  | b
  deriving DecidableEq

/-- The bootname of a slot. -/
def Slot.name : Slot → String
  | a => "A"
  | b => "B"

/-- The attempt counter of a slot. -/
def Slot.left : Slot → String
  | a => "BOOT_A_LEFT"
  | b => "BOOT_B_LEFT"

/-- The partition number of a slot. -/
def Slot.part : Slot → String
  | a => "2"
  | b => "3"

/-- The other slot. -/
def Slot.other : Slot → Slot
  | a => .b
  | b => .a

theorem other_ne (x : Slot) : x.other≠x := by
  cases x <;> decide

theorem eq_or_eq_other (x r : Slot) : x=r ∨ x=r.other := by
  cases x <;> cases r <;> first | exact Or.inl rfl | exact Or.inr rfl

theorem name_injective {x y : Slot} (h : x.name=y.name) : x=y := by
  cases x <;> cases y <;> first | rfl | exact absurd h (by decide)

/-- Values of the environment variables. -/
abbrev Env := String → Option String

/-- No variable has a value. -/
def Env.empty : Env := fun _ => none

/-- What a variable expands to. -/
def Env.value (e : Env) (name : String) : String := (e name).getD ""

/-- setenv with a value. -/
def Env.set (e : Env) (name value : String) : Env := fun m => if m=name then some value else e m

/-- setenv without a value. -/
def Env.unset (e : Env) (name : String) : Env := fun m => if m=name then none else e m

@[simp] theorem value_set_self (e : Env) (name value : String) :
    (e.set name value).value name=value := by
  simp only [Env.value,Env.set,if_true,Option.getD_some]

theorem value_set_of_ne {e : Env} {name value m : String} (h : m≠name) :
    (e.set name value).value m=e.value m := by
  simp only [Env.value,Env.set,if_neg h]

@[simp] theorem value_unset_self (e : Env) (name : String) : (e.unset name).value name="" := by
  simp only [Env.value,Env.unset,if_true,Option.getD_none]

theorem value_unset_of_ne {e : Env} {name m : String} (h : m≠name) :
    (e.unset name).value m=e.value m := by
  simp only [Env.value,Env.unset,if_neg h]

/-- Set a variable that has no value. -/
def Env.setDefault (e : Env) (name value : String) : Env :=
  if e.value name="" then e.set name value else e

/-- A value with its default. -/
def orDefault (default value : String) : String := if value="" then default else value

theorem value_setDefault_self (e : Env) (name value : String) :
    (e.setDefault name value).value name=orDefault value (e.value name) := by
  unfold Env.setDefault orDefault
  split
  · exact value_set_self e name value
  · rfl

theorem value_setDefault_of_ne {e : Env} {name value m : String} (h : m≠name) :
    (e.setDefault name value).value m=e.value m := by
  unfold Env.setDefault
  split
  · exact value_set_of_ne h
  · rfl

theorem orDefault_of_ne {default value : String} (h : value≠"") : orDefault default value=value :=
  if_neg h

theorem orDefault_idem (default value : String) :
    orDefault default (orDefault default value)=orDefault default value := by
  by_cases h : value=""
  · rw [orDefault,orDefault,if_pos h]
    exact ite_self _
  · rw [orDefault_of_ne h,orDefault_of_ne h]

/-- The slot order and the attempt counters, with their defaults. -/
@[ext] structure Attempts where
  /-- The slot names in boot order. -/
  order : String
  /-- The counter of each slot. -/
  left : Slot → String

/-- The attempts an environment holds. -/
def attempts (e : Env) : Attempts :=
  ⟨orDefault "A B" (e.value "BOOT_ORDER"),fun x => orDefault "3" (e.value x.left)⟩

/-- The attempts depend on three variables only. -/
theorem attempts_congr {e e' : Env} (ho : e'.value "BOOT_ORDER"=e.value "BOOT_ORDER")
    (hl : ∀ x : Slot,e'.value x.left=e.value x.left) : attempts e'=attempts e := by
  simp only [attempts,ho,hl]

/-- Whether a variable is none of the three. -/
def Unshared (name : String) : Prop :=
  name≠"BOOT_ORDER" ∧ name≠"BOOT_A_LEFT" ∧ name≠"BOOT_B_LEFT"

instance : DecidablePred Unshared := fun name =>
  inferInstanceAs (Decidable (name≠"BOOT_ORDER" ∧ name≠"BOOT_A_LEFT" ∧ name≠"BOOT_B_LEFT"))

theorem Unshared.left_ne {name : String} (h : Unshared name) (x : Slot) : x.left≠name := by
  cases x
  · exact h.2.1.symm
  · exact h.2.2.symm

theorem attempts_set {e : Env} {name value : String} (h : Unshared name) :
    attempts (e.set name value)=attempts e :=
  attempts_congr (value_set_of_ne h.1.symm) fun x => value_set_of_ne (h.left_ne x)

theorem attempts_unset {e : Env} {name : String} (h : Unshared name) :
    attempts (e.unset name)=attempts e :=
  attempts_congr (value_unset_of_ne h.1.symm) fun x => value_unset_of_ne (h.left_ne x)

theorem left_ne_order (x : Slot) : x.left≠"BOOT_ORDER" := by
  cases x <;> decide

theorem left_injective {x y : Slot} (h : x.left=y.left) : x=y := by
  cases x <;> cases y <;> first | rfl | exact absurd h (by decide)

/-- Setting the order. -/
theorem attempts_set_order (e : Env) {value : String} (h : value≠"") :
    attempts (e.set "BOOT_ORDER" value)=⟨value,(attempts e).left⟩ := by
  have hl : ∀ x : Slot,(e.set "BOOT_ORDER" value).value x.left=e.value x.left :=
    fun x => value_set_of_ne (left_ne_order x)
  simp only [attempts,value_set_self,hl,orDefault_of_ne h]

/-- Setting a counter. -/
theorem attempts_set_left (e : Env) (x : Slot) (value : String) (h : value≠"") :
    attempts (e.set x.left value)=
      ⟨(attempts e).order,fun y => if y=x then value else (attempts e).left y⟩ := by
  have ho : (e.set x.left value).value "BOOT_ORDER"=e.value "BOOT_ORDER" :=
    value_set_of_ne (left_ne_order x).symm
  have hl : ∀ y : Slot,orDefault "3" ((e.set x.left value).value y.left)=
      if y=x then value else orDefault "3" (e.value y.left) := by
    intro y
    by_cases hy : y=x
    · rw [hy,value_set_self,orDefault_of_ne h,if_pos rfl]
    · rw [value_set_of_ne fun he => hy (left_injective he),if_neg hy]
  simp only [attempts,ho,hl]

/-- Writing a default does not change what is read with it. -/
theorem attempts_setDefault_order (e : Env) :
    attempts (e.setDefault "BOOT_ORDER" "A B")=attempts e := by
  have hl : ∀ x : Slot,(e.setDefault "BOOT_ORDER" "A B").value x.left=e.value x.left :=
    fun x => value_setDefault_of_ne (left_ne_order x)
  simp only [attempts,value_setDefault_self,hl,orDefault_idem]

theorem attempts_setDefault_left (e : Env) (x : Slot) :
    attempts (e.setDefault x.left "3")=attempts e := by
  have ho : (e.setDefault x.left "3").value "BOOT_ORDER"=e.value "BOOT_ORDER" :=
    value_setDefault_of_ne (left_ne_order x).symm
  have hl : ∀ y : Slot,orDefault "3" ((e.setDefault x.left "3").value y.left)=
      orDefault "3" (e.value y.left) := by
    intro y
    by_cases hy : y=x
    · rw [hy,value_setDefault_self,orDefault_idem]
    · rw [value_setDefault_of_ne fun he => hy (left_injective he)]
  simp only [attempts,ho,hl]

/-- The slot a word names. -/
def slotNamed (word : String) : Option Slot :=
  if word="A" then some .a else if word="B" then some .b else none

theorem slotNamed_eq_some {word : String} {x : Slot} : slotNamed word=some x ↔ word=x.name := by
  unfold slotNamed
  constructor
  · intro h
    split at h
    · cases h
      assumption
    · split at h
      · cases h
        assumption
      · cases h
  · rintro rfl
    cases x <;> decide

/-- The slot a word lets boot: it names one with attempts left. -/
def Attempts.bootable (u : Numbers) (v : Attempts) (word : String) : Option Slot :=
  (slotNamed word).filter fun x => u.positive (v.left x)

/-- The first slot in boot order with attempts left. -/
def Attempts.choice (u : Numbers) (v : Attempts) : Option Slot :=
  (words v.order).findSome? (v.bootable u)

/-- One attempt of a slot is used up. -/
def Attempts.spend (u : Numbers) (v : Attempts) (x : Slot) : Attempts :=
  ⟨v.order,fun y => if y=x then u.minusOne (v.left x) else v.left y⟩

/-- Both slots get three attempts. -/
def Attempts.refill (v : Attempts) : Attempts := ⟨v.order,fun _ => "3"⟩

theorem bootable_eq_some {u : Numbers} {v : Attempts} {word : String} {x : Slot} :
    v.bootable u word=some x ↔ word=x.name ∧ u.positive (v.left x)=true := by
  rw [Attempts.bootable,Option.filter_eq_some_iff,slotNamed_eq_some]

/-- The chosen slot is in the order and has attempts left. -/
theorem choice_eq_some {u : Numbers} {v : Attempts} {x : Slot} (h : v.choice u=some x) :
    x.name∈words v.order ∧ u.positive (v.left x)=true := by
  obtain ⟨word,hw,hb⟩ := List.exists_of_findSome?_eq_some h
  obtain ⟨rfl,hp⟩ := bootable_eq_some.mp hb
  exact ⟨hw,hp⟩

end Greenhouse.BootEnvironment
