import Greenhouse.BootScript

/-!
# The running slot as userland sees it

The boot script appends its root file system to a command line that it does not
control. The kernel mounts the last root= word, which is always the appended
one. The script boot-mark-good.sh instead looks for the two root file systems
anywhere in the command line, the one of slot A first, so a slot A word of the
firmware hides slot B.
-/

namespace Greenhouse.BootMarkGood

open BootNumbers SpacedWords BootEnvironment CrashScript BootScript

/-- The variable that boot-mark-good.sh sets for a slot. -/
def counterVar : Slot → String
  | .a => "boot_a_left"
  | .b => "boot_b_left"

/-- The slot that boot-mark-good.sh takes for the active one. -/
def activeSlot (cmdline : String) : Option Slot :=
  if Contains cmdline "root=/dev/mmcblk0p2" then some .a
  else if Contains cmdline "root=/dev/mmcblk0p3" then some .b
  else none

/-- fw_setenv sets one variable, or fails. -/
def fwSetenv (works : Bool) (name value : String) (e : Env) : Option Env :=
  if works=true then some (e.set name value) else none

/-- boot-mark-good.sh: its exit code and the environment it leaves. -/
def bootMarkGood (cmdline : String) (works : Bool) (e : Env) : ℕ × Env :=
  match activeSlot cmdline with
  | none => (1,e)
  | some x =>
    match fwSetenv works (counterVar x) "3" e with
    | some e' => (0,e')
    | none => (1,e)

/-- A script that exits with 0 has set the variable of the slot it found. -/
theorem bootMarkGood_exit {cmdline : String} {works : Bool} {e : Env} {x : Slot}
    (h : activeSlot cmdline=some x) (hc : (bootMarkGood cmdline works e).1=0) :
    (bootMarkGood cmdline works e).2=e.set (counterVar x) "3" := by
  unfold bootMarkGood at *
  rw [h] at hc ⊢
  cases works with
  | true => rfl
  | false => cases hc

/-- The value of a root= word. -/
def rootValue (word : String) : Option String :=
  if "root=".toList<+:word.toList then some (String.ofList (word.toList.drop 5)) else none

/-- The root file system that the kernel mounts. -/
def mountedRoot (cmdline : String) : Option String := ((words cmdline).filterMap rootValue).getLast?

/-- The root file system of a slot. -/
def rootDevice (x : Slot) : String := "/dev/mmcblk0p"++x.part

/-- The words that the boot script appends. -/
def appended (x : Slot) : String :=
  "root="++rootDevice x++" rootfstype=ext4 rootwait rauc.slot="++x.name

variable {u : Numbers} {firmware : Option String} {e : Env} {x : Slot}

/-- The kernel command line of a selected slot. -/
theorem commandLine_chosen :
    commandLine (chosen u e x)=e.value "bootargs"++" "++appended x := by
  rw [commandLine,value_chosen_bootargs,value_chosen_rootpart,value_chosen_raucslot]
  simp only [String.append_assoc]
  congr 1
  cases x <;> decide

/-- The kernel mounts the appended root file system. -/
theorem mountedRoot_append (bootargs : String) :
    mountedRoot (bootargs++" "++appended x)=some (rootDevice x) := by
  have hroot : ((words (appended x)).filterMap rootValue)=[rootDevice x] := by
    cases x <;> decide +kernel
  rw [mountedRoot,words_append_space,List.filterMap_append,hroot,List.getLast?_concat]

/-- The script finds slot A always when it runs, and slot B when nothing before
the appended words names the root file system of slot A. -/
theorem activeSlot_append (bootargs : String) :
    activeSlot (bootargs++" "++appended x)=some x ↔
      (x=.b → ¬Contains bootargs "root=/dev/mmcblk0p2") := by
  cases x with
  | a =>
    have ha : Contains (bootargs++" "++appended .a) "root=/dev/mmcblk0p2" :=
      (contains_append_space (by decide)).mpr (Or.inr (by decide +kernel))
    rw [activeSlot,if_pos ha]
    exact ⟨nofun,fun _ => rfl⟩
  | b =>
    have ha : Contains (bootargs++" "++appended .b) "root=/dev/mmcblk0p2" ↔
        Contains bootargs "root=/dev/mmcblk0p2" :=
      (contains_append_space (by decide)).trans (or_iff_left (by decide +kernel))
    have hb : Contains (bootargs++" "++appended .b) "root=/dev/mmcblk0p3" :=
      (contains_append_space (by decide)).mpr (Or.inr (by decide +kernel))
    rw [activeSlot,if_pos hb]
    by_cases hc : Contains bootargs "root=/dev/mmcblk0p2"
    · rw [if_pos (ha.mpr hc)]
      exact ⟨nofun,fun h => absurd hc (h rfl)⟩
    · rw [if_neg fun h => hc (ha.mp h)]
      exact ⟨fun _ _ => hc,fun _ => rfl⟩

/-- Userland finds the slot that the boot script selected and the kernel
mounted, whenever a kernel was started. -/
def Agrees (b : Board) : Prop :=
  ∀ x e,b.selected=some x → b.started=some e →
    activeSlot (e.value "bootargs")=some x ∧ mountedRoot (e.value "bootargs")=some (rootDevice x)

/-- With the command line of the firmware, the two agree unless the loop selects
slot B and the firmware already names the root file system of slot A. -/
theorem agrees_iff (u : Numbers) (sh : Expansion) (builtin : Env) (stored : Option Env)
    (bootargs : String) :
    Agrees (pass u sh (some bootargs) builtin stored) ↔
      (selection u sh (stored.getD builtin)=some .b →
        ¬Contains bootargs "root=/dev/mmcblk0p2") := by
  have hargs : (prepared (some bootargs) (stored.getD builtin)).value "bootargs"=bootargs := by
    rw [value_prepared_bootargs,withBootargs,value_set_self]
  have hpass := finished_pass u sh (some bootargs) builtin stored
  generalize pass u sh (some bootargs) builtin stored=b at hpass ⊢
  cases hpass with
  | @started env x choice =>
    dsimp only [powerOn] at choice ⊢
    rw [selection_prepared] at choice
    have hline : (kernelEnv (chosen u (prepared (some bootargs) (stored.getD builtin)) x)).value
        "bootargs"=bootargs++" "++appended x := by
      rw [kernelEnv,value_set_self,commandLine_chosen,hargs]
    rw [choice,Option.some.injEq,←activeSlot_append]
    constructor
    · intro h
      have hx := (h x _ rfl rfl).1
      rwa [hline] at hx
    · rintro h y e hy he
      cases hy
      cases he
      rw [hline]
      exact ⟨h,mountedRoot_append bootargs⟩
  | reset choice =>
    dsimp only [powerOn] at choice
    rw [selection_prepared] at choice
    rw [choice]
    constructor
    · intro _ hb
      cases hb
    · intro _ x e hx
      cases hx

/-- The command line of the Raspberry Pi boot files. -/
def cmdlineRootfs : String := "root=/dev/mmcblk0p2 rootfstype=ext4 rootwait"

/-- Slot B is first in boot order, as after an update. -/
def updatedEnv : Env := Env.empty.set "BOOT_ORDER" "B A"

/-- With the command line of the Raspberry Pi boot files, a running slot B is
taken for slot A. -/
theorem not_agrees_cmdlineRootfs :
    ¬Agrees (pass uboot environmentFirst (some cmdlineRootfs) Env.empty (some updatedEnv)) := by
  have hselected : (pass uboot environmentFirst (some cmdlineRootfs) Env.empty
      (some updatedEnv)).selected=some .b := by
    decide +kernel
  have hactive : (pass uboot environmentFirst (some cmdlineRootfs) Env.empty
      (some updatedEnv)).started.map (fun e => activeSlot (e.value "bootargs"))=some (some .a) := by
    decide +kernel
  obtain ⟨e,he,ha⟩ := Option.map_eq_some_iff.mp hactive
  intro h
  have hb := (h .b e hselected he).1
  rw [ha] at hb
  cases hb

end Greenhouse.BootMarkGood
