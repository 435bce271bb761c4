import Greenhouse.BootScript

/-!
# Recovery from used up attempts

A pass without a bootable slot gives both slots their attempts back and resets.
The reset branch does not touch BOOT_ORDER, so one reset is enough exactly when
the order names a slot; otherwise every later pass resets again.
-/

namespace Greenhouse.BootRecovery

open BootNumbers SpacedWords BootEnvironment CrashScript BootScript

/-- The order that the script uses has a word that names a slot. -/
def NamesSlot (e : Env) : Prop :=
  ∃ word∈words (orDefault "A B" (e.value "BOOT_ORDER")),word="A" ∨ word="B"

/-- A pass from power-on reaches the kernel of a slot. -/
def Starts (u : Numbers) (sh : Expansion) (builtin : Env) (stored : Option Env)
    (firmware : Option String) : Prop :=
  ∃ b,((bootCmd u sh firmware).trace (powerOn builtin stored)).ending=.leaves b ∧
    b.selected.isSome=true ∧ b.started.isSome=true

/-- A pass from power-on ends in the reset branch. -/
def Resets (u : Numbers) (sh : Expansion) (builtin : Env) (stored : Option Env)
    (firmware : Option String) : Prop :=
  ∃ b,((bootCmd u sh firmware).trace (powerOn builtin stored)).ending=.leaves b ∧
    b.selected=none ∧ b.started=none

/-- The storage after some passes, each from the storage that the one before
it has left. -/
def storageAfter (u : Numbers) (sh : Expansion) (builtin : Env) (stored : Option Env) :
    List (Option String) → Option Env
  | [] => stored
  | firmware::firmwares => storageAfter u sh builtin (pass u sh firmware builtin stored).stored firmwares

variable {u : Numbers} {sh : Expansion} {builtin : Env} {stored : Option Env}

/-- The order names a slot when one of the two names is among its words. -/
theorem namesSlot_iff {e : Env} : NamesSlot e ↔ ∃ x : Slot,x.name∈words (attempts e).order := by
  constructor
  · rintro ⟨word,hw,rfl|rfl⟩
    · exact ⟨.a,hw⟩
    · exact ⟨.b,hw⟩
  · rintro ⟨x,hx⟩
    refine ⟨x.name,hx,?_⟩
    cases x with
    | a => exact Or.inl rfl
    | b => exact Or.inr rfl

/-- There is a choice when some slot of the order has attempts left. -/
theorem choice_isSome_iff {v : Attempts} :
    (v.choice u).isSome=true ↔ ∃ x : Slot,x.name∈words v.order ∧ u.positive (v.left x)=true := by
  constructor
  · intro h
    obtain ⟨x,hx⟩ := Option.isSome_iff_exists.mp h
    exact ⟨x,choice_eq_some hx⟩
  · rintro ⟨x,hw,hp⟩
    refine List.findSome?_isSome_iff.mpr ⟨x.name,hw,?_⟩
    rw [bootable_eq_some.mpr ⟨rfl,hp⟩,Option.isSome_some]

/-- Refilled attempts give a choice when the order names a slot. -/
theorem choice_refill_isSome_iff {v : Attempts} (h3 : u.positive "3"=true) :
    (v.refill.choice u).isSome=true ↔ ∃ x : Slot,x.name∈words v.order := by
  rw [choice_isSome_iff]
  exact exists_congr fun x => and_iff_left h3

/-- A pass ends with the choice as its slot, and with a kernel when there is one. -/
theorem exists_leaves_iff (hsh : SeesWords sh (stored.getD builtin)) {firmware : Option String}
    (R : Option Slot → Bool → Prop) :
    (∃ b,((bootCmd u sh firmware).trace (powerOn builtin stored)).ending=.leaves b ∧
        R b.selected b.started.isSome) ↔
      R ((attempts (stored.getD builtin)).choice u)
        ((attempts (stored.getD builtin)).choice u).isSome := by
  obtain ⟨hleaves,hfinished⟩ := pass_leaves u sh firmware builtin stored
  rw [←hsh.selected u firmware,←hfinished.selection.2]
  constructor
  · rintro ⟨b,hb,hr⟩
    rw [hleaves,Ending.leaves.injEq] at hb
    rw [hb]
    exact hr
  · intro hr
    exact ⟨_,hleaves,hr⟩

/-- A pass reaches a kernel exactly when there is a choice. -/
theorem starts_iff (hsh : SeesWords sh (stored.getD builtin)) {firmware : Option String} :
    Starts u sh builtin stored firmware ↔ ((attempts (stored.getD builtin)).choice u).isSome=true :=
  (exists_leaves_iff hsh fun slot kernel => slot.isSome=true ∧ kernel=true).trans and_self_iff

/-- A pass resets exactly when there is no choice. -/
theorem resets_iff (hsh : SeesWords sh (stored.getD builtin)) {firmware : Option String} :
    Resets u sh builtin stored firmware ↔ (attempts (stored.getD builtin)).choice u=none := by
  have hnone : ∀ kernel : Option Env,kernel=none ↔ kernel.isSome=false := fun _ =>
    (Option.isSome_eq_false_iff.trans Option.isNone_iff_eq_none).symm
  have hends : ∀ b : Board,b.selected=none ∧ b.started=none ↔
      b.selected=none ∧ b.started.isSome=false := fun b => and_congr_right' (hnone b.started)
  refine (exists_congr fun b => and_congr_right' (hends b)).trans ?_
  refine (exists_leaves_iff hsh fun slot kernel => slot=none ∧ kernel=false).trans ?_
  exact and_iff_left_of_imp fun h => by rw [h]; rfl

/-- No pass changes the order. -/
theorem order_pass (firmware : Option String) :
    (attempts ((pass u sh firmware builtin stored).stored.getD builtin)).order=
      (attempts (stored.getD builtin)).order := by
  obtain ⟨_,⟨x,_,hspend⟩|⟨_,hrefill⟩⟩ :=
    (finished_pass u sh firmware builtin stored).attempts_stored builtin
  · rw [hspend]
    rfl
  · rw [hrefill]
    rfl

/-- No number of passes changes the order. -/
theorem order_storageAfter (firmwares : List (Option String)) :
    (attempts ((storageAfter u sh builtin stored firmwares).getD builtin)).order=
      (attempts (stored.getD builtin)).order := by
  induction firmwares generalizing stored with
  | nil => rfl
  | cons firmware firmwares ih => exact ih.trans (order_pass firmware)

/-- After a reset the attempts are given back. -/
theorem attempts_after_reset (hsh : SeesWords sh (stored.getD builtin)) {firmware : Option String}
    (h : (attempts (stored.getD builtin)).choice u=none) :
    attempts ((pass u sh firmware builtin stored).stored.getD builtin)=
      (attempts (stored.getD builtin)).refill := by
  have hfinished := finished_pass u sh firmware builtin stored
  obtain ⟨_,⟨x,hx,_⟩|⟨_,hrefill⟩⟩ := hfinished.attempts_stored builtin
  · have hnone : (pass u sh firmware builtin stored).selected=none := (hsh.selected u firmware).trans h
    rw [hx] at hnone
    cases hnone
  · exact hrefill

/-- The loops of later passes see their words when that of the first one does. -/
theorem seesWords_storageAfter (h : SeesWords sh (stored.getD builtin))
    (firmwares : List (Option String)) :
    SeesWords sh ((storageAfter u sh builtin stored firmwares).getD builtin) := by
  induction firmwares generalizing stored with
  | nil => exact h
  | cons firmware firmwares ih => exact ih (h.pass u firmware)

/-- From any storage, the script reaches a kernel after at most one reset
exactly when the order names a slot; otherwise every pass resets. The number
commands are arbitrary as long as 3 counts as positive, and so is the expansion
of the loop variable as long as it is the word. -/
theorem recovers_iff_namesSlot (u : Numbers) (h3 : u.positive "3"=true) (sh : Expansion)
    (builtin : Env) (stored : Option Env) (hsh : SeesWords sh (stored.getD builtin)) :
    (∀ first second,NamesSlot (stored.getD builtin) ↔
      Starts u sh builtin stored first ∨ Resets u sh builtin stored first ∧
        Starts u sh builtin (pass u sh first builtin stored).stored second) ∧
    (¬NamesSlot (stored.getD builtin) →
      ∀ firmwares firmware,Resets u sh builtin (storageAfter u sh builtin stored firmwares) firmware) := by
  refine ⟨fun first second => ?_,fun hno firmwares firmware => ?_⟩
  · have hsecond := hsh.pass u first
    rw [namesSlot_iff]
    constructor
    · intro hnames
      cases hc : (attempts (stored.getD builtin)).choice u with
      | some x => exact Or.inl ((starts_iff hsh).mpr (by rw [hc,Option.isSome_some]))
      | none =>
        refine Or.inr ⟨(resets_iff hsh).mpr hc,(starts_iff hsecond).mpr ?_⟩
        rw [attempts_after_reset hsh hc]
        exact (choice_refill_isSome_iff h3).mpr hnames
    · rintro (hstarts|⟨hresets,hstarts⟩)
      · obtain ⟨x,hw,_⟩ := choice_isSome_iff.mp ((starts_iff hsh).mp hstarts)
        exact ⟨x,hw⟩
      · have hsome := (starts_iff hsecond).mp hstarts
        rw [attempts_after_reset hsh ((resets_iff hsh).mp hresets)] at hsome
        exact (choice_refill_isSome_iff h3).mp hsome
  · have hlater := seesWords_storageAfter (u:=u) hsh firmwares
    refine (resets_iff hlater).mpr (Option.not_isSome_iff_eq_none.mp fun hsome => hno ?_)
    obtain ⟨x,hw,_⟩ := choice_isSome_iff.mp hsome
    rw [order_storageAfter] at hw
    exact namesSlot_iff.mpr ⟨x,hw⟩

/-- The recovery with the number commands of U-Boot, from an order that names
only an exhausted slot B. -/
theorem recovers_iff_namesSlot_uboot :
    Resets uboot environmentFirst Env.empty (some ((Env.empty.set "BOOT_ORDER" "C B").set "BOOT_B_LEFT" "0")) none ∧
      Starts uboot environmentFirst Env.empty (pass uboot environmentFirst none Env.empty
        (some ((Env.empty.set "BOOT_ORDER" "C B").set "BOOT_B_LEFT" "0"))).stored none := by
  have hnames : NamesSlot ((some ((Env.empty.set "BOOT_ORDER" "C B").set "BOOT_B_LEFT" "0")).getD
      Env.empty) := ⟨"B",by decide,Or.inr rfl⟩
  have hsh : SeesWords environmentFirst
      ((some ((Env.empty.set "BOOT_ORDER" "C B").set "BOOT_B_LEFT" "0")).getD Env.empty) :=
    environmentFirst_spec.seesWords (by decide)
  have hexhausted : ¬Starts uboot environmentFirst Env.empty
      (some ((Env.empty.set "BOOT_ORDER" "C B").set "BOOT_B_LEFT" "0")) none := by
    rw [starts_iff hsh]
    decide +kernel
  have h := recovers_iff_namesSlot uboot (by decide) environmentFirst Env.empty
    (some ((Env.empty.set "BOOT_ORDER" "C B").set "BOOT_B_LEFT" "0")) hsh
  exact ((h.1 none none).mp hnames).resolve_left hexhausted

end Greenhouse.BootRecovery
