import Greenhouse.BootDevice
import Greenhouse.BootRecovery

/-!
# The slot selection and its reference

The loop of the boot script has no break and keeps its choice in a variable of
the environment, which it clears first. Read against counters that are single
digits it selects the first bootable word of the order, unless a value is stored
under the name of the loop variable: that one is not cleared, and U-Boot finds
it before the word. The extended command line is set after the last saveenv, so
it is never stored.
-/

namespace Greenhouse.BootSelection

open BootNumbers SpacedWords BootEnvironment CrashScript BootScript BootDevice BootRecovery
  TemporalRuns

/-- The counters of an environment: each is unset, which counts as three, or a
decimal digit. -/
def Digits (e : Env) (counts : Slot → ℕ) : Prop :=
  ∀ x : Slot,counts x≤9 ∧
    (e.value x.left=toString (counts x) ∨ e.value x.left="" ∧ counts x=3)

/-- The first word of an order that is A or B with a positive counter. -/
def firstSlot (counts : Slot → ℕ) : List String → Option Slot
  | [] => none
  | word::rest =>
    if word="A" ∧ 0<counts .a then some .a
    else if word="B" ∧ 0<counts .b then some .b
    else firstSlot counts rest

/-- What a pass of the boot script selects, and what it has saved when the
kernel of the selected slot starts. -/
structure MeetsReference (sh : Expansion) (builtin : Env) (stored : Option Env)
    (firmware : Option String) (order : String) (counts : Slot → ℕ) : Prop where
  /-- The pass selects the first bootable word. -/
  selected : (pass uboot sh firmware builtin stored).selected=firstSlot counts (words order)
  /-- It selects none exactly when no word is bootable. -/
  none_iff : (pass uboot sh firmware builtin stored).selected=none ↔
    ∀ x : Slot,x.name∈words order → counts x=0
  /-- A kernel starts exactly when a slot is selected. -/
  starts : (pass uboot sh firmware builtin stored).started.isSome=
    (pass uboot sh firmware builtin stored).selected.isSome
  /-- Whenever a kernel has been started, the partition is that of the selected
  slot, and exactly one attempt of the slot is saved as used up. -/
  saved : ∀ commands kernel,
    ((bootCmd uboot sh firmware).cut (powerOn builtin stored) commands).started=some kernel →
    ∃ x saved,((bootCmd uboot sh firmware).cut (powerOn builtin stored) commands).selected=some x ∧
      ((bootCmd uboot sh firmware).cut (powerOn builtin stored) commands).stored=some saved ∧
      firstSlot counts (words order)=some x ∧ kernel.value "raucslot"=x.name ∧
      kernel.value "rootpart"=x.part ∧ saved.value x.left=toString (counts x-1) ∧
      saved.value x.other.left=toString (counts x.other) ∧ saved.value "BOOT_ORDER"=order

/-- The stored BOOT_SLOT does no harm: there is none, or the loop has no round, or
it is the first bootable word of the order or as little bootable as all of them. -/
def SlotFits (e : Env) (counts : Slot → ℕ) : Prop :=
  e.value "BOOT_SLOT"="" ∨ words (orDefault "A B" (e.value "BOOT_ORDER"))=[] ∨
    firstSlot counts [e.value "BOOT_SLOT"]=
      firstSlot counts (words (orDefault "A B" (e.value "BOOT_ORDER")))

instance (e : Env) (counts : Slot → ℕ) : Decidable (SlotFits e counts) :=
  inferInstanceAs (Decidable (_ ∨ _ ∨ _))

/-- The command line that the firmware gives to a boot. -/
def firmwareLine : Event → Option String
  | .boot firmware _ => firmware
  | _ => none

section Selection

variable {sh : Expansion} {e : Env} {counts : Slot → ℕ} {builtin : Env} {stored : Option Env}
  {firmware : Option String}

/-- The counters are read with their defaults. -/
theorem Digits.left (h : Digits e counts) (x : Slot) : (attempts e).left x=toString (counts x) := by
  obtain ⟨_,hset|⟨hunset,hthree⟩⟩ := h x
  · have hne : toString (counts x)≠"" := Nat.repr_ne_empty
    dsimp only [attempts]
    rw [hset,orDefault_of_ne hne]
  · dsimp only [attempts]
    rw [hunset,hthree]
    rfl

/-- A slot is bootable when its number is positive. -/
theorem Digits.positive (h : Digits e counts) (x : Slot) :
    uboot.positive ((attempts e).left x)=decide (0<counts x) := by
  rw [h.left]
  exact (uboot_digit (h x).1).1

/-- One word of the order, read by the reference. -/
theorem Digits.bootable (h : Digits e counts) (word : String) :
    (attempts e).bootable uboot word=
      if word="A" ∧ 0<counts .a then some .a
      else if word="B" ∧ 0<counts .b then some .b else none := by
  rw [Attempts.bootable,slotNamed]
  by_cases ha : word="A"
  · have hb : word≠"B" := by
      rw [ha]
      decide
    rw [if_pos ha,Option.filter_some,h.positive]
    simp only [ha,true_and,decide_eq_true_eq]
    rw [if_neg (c:=("A"="B" ∧ 0<counts .b)) fun hab => absurd hab.1 (by decide)]
  · rw [if_neg ha,if_neg (c:=(word="A" ∧ _)) fun hw => ha hw.1]
    by_cases hb : word="B"
    · rw [if_pos hb,Option.filter_some,h.positive]
      simp only [hb,true_and,decide_eq_true_eq]
    · rw [if_neg hb,if_neg fun hw => hb hw.1]
      rfl

/-- A search that finds the same in every place. -/
theorem findSome?_const {α β : Type*} {f : α → Option β} {r : Option β} {x : α} {xs : List α}
    (h : ∀ y,f y=r) : (x::xs).findSome? f=r := by
  induction xs generalizing x with
  | nil =>
    rw [List.findSome?_singleton,h]
  | cons y xs ih =>
    rw [List.findSome?_cons,ih,h]
    cases r <;> rfl

/-- The choice is the reference. -/
theorem Digits.choice (h : Digits e counts) :
    (attempts e).choice uboot=firstSlot counts (words (attempts e).order) := by
  rw [Attempts.choice]
  generalize words (attempts e).order=ws
  induction ws with
  | nil => rfl
  | cons word ws ih =>
    rw [List.findSome?_cons,h.bootable,firstSlot,ih]
    by_cases ha : word="A" ∧ 0<counts .a
    · rw [if_pos ha,if_pos ha]
    · rw [if_neg ha,if_neg ha]
      by_cases hb : word="B" ∧ 0<counts .b
      · rw [if_pos hb,if_pos hb]
      · rw [if_neg hb,if_neg hb]

/-- A word alone is read like a round. -/
theorem Digits.firstSlot_singleton (h : Digits e counts) (word : String) :
    firstSlot counts [word]=(attempts e).bootable uboot word := by
  rw [h.bootable,firstSlot]
  rfl

/-- A shell that looks up the environment first selects the reference exactly
when the stored BOOT_SLOT fits. -/
theorem Digits.selection_iff (h : Digits e counts) (hsh : EnvironmentFirst sh) :
    selection uboot sh e=firstSlot counts (words (attempts e).order) ↔ SlotFits e counts := by
  by_cases hslot : e.value "BOOT_SLOT"=""
  · rw [(hsh.seesWords hslot).selection]
    exact iff_of_true h.choice (Or.inl hslot)
  · have hround : ∀ word,roundSlot uboot sh e word=firstSlot counts [e.value "BOOT_SLOT"] := by
      intro word
      rw [roundSlot,hsh,if_neg hslot,h.firstSlot_singleton]
    unfold SlotFits
    rw [or_iff_right hslot]
    change _ ↔ words (attempts e).order=[] ∨ _=firstSlot counts (words (attempts e).order)
    cases hwords : words (attempts e).order with
    | nil =>
      rw [selection,hwords]
      exact iff_of_true rfl (Or.inl rfl)
    | cons word rest =>
      have hselection : selection uboot sh e=firstSlot counts [e.value "BOOT_SLOT"] := by
        rw [selection,hwords]
        exact findSome?_const hround
      rw [hselection,or_iff_right (List.cons_ne_nil _ _)]

/-- The reference is none when no named slot has a positive number. -/
theorem Digits.firstSlot_eq_none_iff (h : Digits e counts) :
    firstSlot counts (words (attempts e).order)=none ↔
      ∀ x : Slot,x.name∈words (attempts e).order → counts x=0 := by
  rw [←h.choice,←Option.not_isSome_iff_eq_none,choice_isSome_iff]
  constructor
  · intro hno x hx
    by_contra hne
    refine hno ⟨x,hx,?_⟩
    rw [h.positive]
    exact decide_eq_true (Nat.pos_of_ne_zero hne)
  · rintro hall ⟨x,hx,hp⟩
    rw [h.positive,hall x hx] at hp
    exact absurd hp (by decide)

/-- What is saved after a selection. -/
theorem Digits.saved {x : Slot} (h : Digits e counts) :
    (chosen uboot (prepared firmware e) x).value x.left=toString (counts x-1) ∧
      (chosen uboot (prepared firmware e) x).value x.other.left=toString (counts x.other) ∧
      (chosen uboot (prepared firmware e) x).value "BOOT_ORDER"=(attempts e).order := by
  have hset : HasAttempts (chosen uboot (prepared firmware e) x) := hasAttempts_chosen
  have hvalues := hset.attempts
  rw [attempts_chosen,Attempts.spend,Attempts.mk.injEq] at hvalues
  obtain ⟨horder,hleft⟩ := hvalues
  have hx := congrFun hleft x
  have ho := congrFun hleft x.other
  rw [if_pos rfl,h.left,(uboot_digit (h x).1).2] at hx
  rw [if_neg (other_ne x),h.left] at ho
  exact ⟨hx.symm,ho.symm,horder.symm⟩

/-- A pass meets its reference when its loop selects it. -/
theorem Digits.meetsReference_iff (h : Digits (stored.getD builtin) counts)
    (sh : Expansion) (firmware : Option String) :
    MeetsReference sh builtin stored firmware
        (orDefault "A B" ((stored.getD builtin).value "BOOT_ORDER")) counts ↔
      selection uboot sh (stored.getD builtin)=
        firstSlot counts (words (attempts (stored.getD builtin)).order) := by
  have hfinished := finished_pass uboot sh firmware builtin stored
  obtain ⟨hselected,hstarts⟩ := hfinished.selection
  refine ⟨fun hm => hselected.symm.trans hm.selected,fun hselection => ?_⟩
  have hreference := hselected.trans hselection
  refine ⟨hreference,?_,hstarts,fun commands kernel hk => ?_⟩
  · rw [hreference]
    exact h.firstSlot_eq_none_iff
  · rcases (bootCmd uboot sh firmware).cut_eq_or_mem (powerOn builtin stored) commands with hc|hc
    · rw [hc] at hk
      cases hk
    have hprogress := (bootCmd_meets rfl rfl).visited _ hc
    generalize (bootCmd uboot sh firmware).cut (powerOn builtin stored) commands=t at hk hprogress ⊢
    cases hprogress with
    | begun saved | selected choice | spent choice | refilled choice => cases hk
    | @started env x choice =>
      cases hk
      dsimp only [powerOn] at choice
      rw [selection_prepared,hselection] at choice
      have hraucslot : (kernelEnv (chosen uboot (prepared firmware (stored.getD builtin)) x)).value
          "raucslot"=x.name :=
        (value_set_of_ne (by decide)).trans value_chosen_raucslot
      have hrootpart : (kernelEnv (chosen uboot (prepared firmware (stored.getD builtin)) x)).value
          "rootpart"=x.part :=
        (value_set_of_ne (by decide)).trans value_chosen_rootpart
      exact ⟨x,_,rfl,rfl,choice,hraucslot,hrootpart,h.saved⟩

end Selection

section CommandLine

variable {u : Numbers} {sh : Expansion} {builtin : Env} {d d' : Device} {ev : Event}

/-- A pass stores the command line that it found, or the one of the firmware. -/
theorem bootargs_progress {firmware : Option String} {b t : Board}
    (hb : (b.stored.getD builtin)=b.env) (h : Progress u sh firmware b t) :
    (t.stored.getD builtin).value "bootargs"=b.env.value "bootargs" ∨
      firmware=some ((t.stored.getD builtin).value "bootargs") := by
  have hwith : (withBootargs firmware b.env).value "bootargs"=b.env.value "bootargs" ∨
      firmware=some ((withBootargs firmware b.env).value "bootargs") := by
    cases firmware with
    | none => exact Or.inl rfl
    | some line => exact Or.inr (by rw [withBootargs,value_set_self])
  rw [←value_prepared_bootargs] at hwith
  cases h with
  | begun saved =>
    rcases saved with rfl|rfl|rfl
    · exact Or.inl (by rw [hb])
    · rw [value_prepared_bootargs] at hwith
      exact hwith
    · exact hwith
  | selected choice => exact hwith
  | spent choice | started choice =>
    rw [Option.getD_some,value_chosen_bootargs]
    exact hwith
  | refilled choice =>
    rw [Option.getD_some,value_refilled_bootargs]
    exact hwith

/-- Userland does not store a command line. -/
theorem bootargs_installInto (o : Slot) :
    ((d.installInto builtin o).env builtin).value "bootargs"=(d.env builtin).value "bootargs" := by
  have hleft : ∀ value,((d.env builtin).set o.left value).value "bootargs"=
      (d.env builtin).value "bootargs" :=
    fun _ => value_set_of_ne (by cases o <;> decide)
  have horder : ∀ value,((d.env builtin).set "BOOT_ORDER" value).value "bootargs"=
      (d.env builtin).value "bootargs" :=
    fun _ => value_set_of_ne (by decide)
  unfold Device.installInto
  split
  · exact horder _
  · exact hleft _
  · rfl
  · rfl
  · exact hleft _
  · exact horder _

/-- One step stores no other command line than the one found or the one of the
firmware. -/
theorem bootargs_step (h : step u sh builtin d ev=some d') :
    (d'.env builtin).value "bootargs"=(d.env builtin).value "bootargs" ∨
      firmwareLine ev=some ((d'.env builtin).value "bootargs") := by
  cases ev with
  | powerLoss =>
    cases h
    exact Or.inl rfl
  | giveUp =>
    obtain ⟨_,hd⟩ := Option.ite_none_right_eq_some.mp h
    cases hd
    exact Or.inl rfl
  | markGood =>
    obtain ⟨r,_,rfl⟩ := Option.map_eq_some_iff.mp h
    exact Or.inl (value_set_of_ne (by cases r <;> decide))
  | install =>
    obtain ⟨r,_,rfl⟩ := Option.map_eq_some_iff.mp h
    exact Or.inl (bootargs_installInto r.other)
  | boot firmware commands =>
    cases hr : d.running with
    | some r => simp only [step,hr,reduceCtorEq] at h
    | none =>
      simp only [step,hr,Option.some.injEq] at h
      subst h
      rcases (bootCmd u sh firmware).cut_eq_or_mem (powerOn builtin d.stored) commands with hc|hc
      · refine Or.inl ?_
        dsimp only [Device.env,Device.afterPass]
        rw [hc]
        rfl
      · exact bootargs_progress rfl ((bootCmd_meets rfl rfl).visited _ hc)

end CommandLine

/-- A loop that sees its words meets the reference. -/
theorem meetsReference_of_seesWords {sh : Expansion} {builtin : Env} {stored : Option Env}
    {counts : Slot → ℕ} (hsh : SeesWords sh (stored.getD builtin))
    (h : Digits (stored.getD builtin) counts) (firmware : Option String) :
    MeetsReference sh builtin stored firmware
      (orDefault "A B" ((stored.getD builtin).value "BOOT_ORDER")) counts :=
  (h.meetsReference_iff sh firmware).mpr (hsh.selection.trans h.choice)

/-- With a shell that looks up the environment first, the passes from an
environment with digits as counters meet their reference exactly when its
BOOT_SLOT fits. Passes from an environment with the same order and counters
then select the same exactly when that one's fits too. Along every run the
stored command line is the first one or one of the firmware, word for word. -/
theorem selection_reference_iff (sh : Expansion) (hsh : EnvironmentFirst sh) (builtin : Env)
    (stored : Option Env) (counts : Slot → ℕ) (h : Digits (stored.getD builtin) counts) :
    ((∀ firmware,MeetsReference sh builtin stored firmware
        (orDefault "A B" ((stored.getD builtin).value "BOOT_ORDER")) counts) ↔
      SlotFits (stored.getD builtin) counts) ∧
    (SlotFits (stored.getD builtin) counts → ∀ firmware firmware' builtin' stored',
      (∀ name∈["BOOT_ORDER","BOOT_A_LEFT","BOOT_B_LEFT"],
        (stored'.getD builtin').value name=(stored.getD builtin).value name) →
      ((pass uboot sh firmware' builtin' stored').selected=
          (pass uboot sh firmware builtin stored).selected ↔
        SlotFits (stored'.getD builtin') counts)) ∧
    ∀ events,EachState (step uboot sh builtin)
      (fun d => (d.env builtin).value "bootargs"∈
        (stored.getD builtin).value "bootargs"::events.filterMap firmwareLine)
      (Device.off stored) events := by
  refine ⟨?_,fun hfits firmware firmware' builtin' stored' hsame => ?_,fun events => ?_⟩
  · rw [←h.selection_iff hsh]
    exact ⟨fun hall => (h.meetsReference_iff sh none).mp (hall none),
      fun hselection firmware => (h.meetsReference_iff sh firmware).mpr hselection⟩
  · have hleft : ∀ x : Slot,(stored'.getD builtin').value x.left=
        (stored.getD builtin).value x.left := by
      intro x
      refine hsame _ ?_
      cases x <;> decide
    have hattempts : attempts (stored'.getD builtin')=attempts (stored.getD builtin) :=
      attempts_congr (hsame _ (by decide)) hleft
    have hdigits : Digits (stored'.getD builtin') counts := by
      intro x
      rw [hleft]
      exact h x
    have hfirst := (finished_pass uboot sh firmware builtin stored).selection.1
    have hsecond := (finished_pass uboot sh firmware' builtin' stored').selection.1
    dsimp only [powerOn] at hfirst hsecond
    rw [hfirst,hsecond,(h.selection_iff hsh).mpr hfits,←hdigits.selection_iff hsh,hattempts]
  · refine eachState_of_invariant (G:=fun _ ev _ => ev∈events) (fun d ev d' hd hev hs => ?_)
      List.mem_cons_self (EachStep.of_events (fun _ hev _ _ => hev) _)
    rcases bootargs_step hs with hkept|hline
    · rw [hkept]
      exact hd
    · exact List.mem_cons_of_mem _ (List.mem_filterMap.mpr ⟨ev,hev,hline⟩)

/-- An environment with a repeated and an unknown name in its order, and stale
values of an earlier boot. -/
def staleEnv : Env :=
  (((((Env.empty.set "BOOT_ORDER" "C A A B").set "BOOT_A_LEFT" "0").set "raucslot" "A").set
    "rootpart" "2").set "BOOT_SLOT" "B").set "bootargs" "quiet root=/dev/mmcblk0p2 rauc.slot=A"

/-- The selection from stale values. -/
theorem selection_reference_iff_staleEnv :
    (pass uboot environmentFirst none Env.empty (some staleEnv)).selected=some .b := by
  have hdigits : Digits staleEnv fun x => if x=.a then 0 else 3 := by
    intro x
    cases x with
    | a => exact ⟨by decide,Or.inl (by decide)⟩
    | b => exact ⟨by decide,Or.inr (by decide)⟩
  have hreference := selection_reference_iff environmentFirst environmentFirst_spec Env.empty
    (some staleEnv) _ hdigits
  exact ((hreference.1.mpr (by decide)) none).selected.trans (by decide)

/-- A value is stored under the name of the loop variable. -/
def slotEnv : Env := Env.empty.set "BOOT_SLOT" "B"

/-- Every round then finds slot B, though the order begins with slot A. -/
theorem selection_not_reference :
    Digits ((some slotEnv).getD Env.empty) (fun _ => 3) ∧
      (pass uboot environmentFirst none Env.empty (some slotEnv)).selected=some .b ∧
      (pass uboot environmentFirst none Env.empty none).selected=some .a ∧
      ¬MeetsReference environmentFirst Env.empty (some slotEnv) none "A B" fun _ => 3 := by
  have hdigits : Digits ((some slotEnv).getD Env.empty) fun _ => 3 :=
    fun x => ⟨Nat.le_of_ble_eq_true rfl,Or.inr ⟨by cases x <;> decide,rfl⟩⟩
  have hslot : (pass uboot environmentFirst none Env.empty (some slotEnv)).selected=some .b := by
    decide +kernel
  refine ⟨hdigits,hslot,by decide +kernel,fun hm => ?_⟩
  have hreference := hm.selected
  rw [hslot] at hreference
  exact absurd hreference (by decide)

end Greenhouse.BootSelection
