import Greenhouse.BootScript
import Greenhouse.TemporalRuns

/-!
# A device over many boots

A run alternates passes of the boot script and the userland of the slot whose
kernel was started. Power may be lost after any command of a pass and between
any two steps of userland. Userland marks the running slot good and installs
updates into the other one; an update writes the order and the counter of its
slot before and after it writes the slot.
-/

namespace Greenhouse.BootDevice

open BootNumbers SpacedWords BootEnvironment CrashScript BootScript TemporalRuns

/-- The last finished step of an installation. -/
inductive InstallPhase
  /-- The slot has been removed from BOOT_ORDER. -/
  | removed
  /-- The counter of the slot has been set to 0. -/
  | disabled
  /-- The slot is being written. -/
  | writing
  /-- The image is complete. -/
  | written
  /-- The counter of the slot has been set to 3. -/
  | enabled
  deriving DecidableEq

/-- A device between two steps. -/
structure Device where
  /-- The content of uboot.env, if the file exists. -/
  stored : Option Env
  /-- The slot whose userland runs. -/
  running : Option Slot
  /-- Whether the content of a slot is complete. -/
  complete : Slot → Bool
  /-- The installation in progress. -/
  install : Option InstallPhase
  /-- The slots that passes of the boot script have selected, in order. -/
  selections : List Slot
  /-- The slots whose kernels have been started, in order. -/
  starts : List Slot

/-- A device without power, with both slots complete. -/
def Device.off (stored : Option Env) : Device := ⟨stored,none,fun _ => true,none,[],[]⟩

/-- The steps of a device. -/
inductive Event
  /-- A pass of the boot script that stops after some commands. -/
  | boot (firmware : Option String) (commands : ℕ)
  /-- Power is lost or the system reboots. -/
  | powerLoss
  /-- The running slot is marked good. -/
  | markGood
  /-- The next step of an installation into the other slot. -/
  | install
  /-- The installation in progress ends without success. -/
  | giveUp
  deriving DecidableEq

/-- The environment that the next pass would load. -/
def Device.env (builtin : Env) (d : Device) : Env := d.stored.getD builtin

/-- fw_setenv writes one variable to storage. -/
def Device.write (builtin : Env) (d : Device) (name value : String) : Device :=
  {d with stored := some ((d.env builtin).set name value)}

/-- BOOT_ORDER without a slot. -/
def withoutSlot (order : String) (x : Slot) : String :=
  unwords ((words order).filter fun word => decide (word≠x.name))

/-- BOOT_ORDER with a slot in front. -/
def slotFirst (order : String) (x : Slot) : String :=
  unwords (x.name::(words order).filter fun word => decide (word≠x.name))

/-- The device after a pass of the boot script. -/
def Device.afterPass (d : Device) (b : Board) : Device :=
  {d with
    stored := b.stored
    running := if b.started.isSome=true then b.selected else none
    selections := d.selections++b.selected.toList
    starts := d.starts++if b.started.isSome=true then b.selected.toList else []}

/-- The next step of an installation into a slot. -/
def Device.installInto (builtin : Env) (d : Device) (o : Slot) : Device :=
  match d.install with
  | none =>
    {d.write builtin "BOOT_ORDER" (withoutSlot (attempts (d.env builtin)).order o) with
      install := some .removed}
  | some .removed => {d.write builtin o.left "0" with install := some .disabled}
  | some .disabled =>
    {d with complete := fun x => if x=o then false else d.complete x,install := some .writing}
  | some .writing =>
    {d with complete := fun x => if x=o then true else d.complete x,install := some .written}
  | some .written => {d.write builtin o.left "3" with install := some .enabled}
  | some .enabled =>
    {d.write builtin "BOOT_ORDER" (slotFirst (attempts (d.env builtin)).order o) with
      install := none}

/-- One step of a device; none when the event is not possible. -/
def step (u : Numbers) (sh : Expansion) (builtin : Env) (d : Device) : Event → Option Device
  | .boot firmware commands =>
    match d.running with
    | none => some (d.afterPass ((bootCmd u sh firmware).cut (powerOn builtin d.stored) commands))
    | some _ => none
  | .powerLoss => some {d with running := none,install := none}
  | .markGood => d.running.map fun r => d.write builtin r.left "3"
  | .install => d.running.map fun r => d.installInto builtin r.other
  | .giveUp => if d.install.isSome=true then some {d with install := none} else none

variable {u : Numbers} {sh : Expansion} {builtin : Env} {d d' : Device}

/-- A pass is possible when no userland runs. -/
theorem step_boot {firmware : Option String} {commands : ℕ}
    (h : step u sh builtin d (.boot firmware commands)=some d')
    (hsh : SeesWords sh (d.env builtin)) : d.running=none ∧ ∃ b,CutPass u (d.env builtin) (b.stored.getD builtin) b ∧
      (HasAttempts (d.env builtin) → HasAttempts (b.stored.getD builtin)) ∧ d'=d.afterPass b := by
  cases hr : d.running with
  | none =>
    simp only [step,hr,Option.some.injEq] at h
    exact ⟨rfl,_,cutPass_bootCmd u firmware commands hsh,
      hasAttempts_bootCmd commands,h.symm⟩
  | some r => simp only [step,hr,reduceCtorEq] at h

/-- The device after a pass, whatever its loop sees. -/
theorem afterPass_of_step {firmware : Option String} {commands : ℕ}
    (h : step u sh builtin d (.boot firmware commands)=some d') : ∃ b,d'=d.afterPass b := by
  cases hr : d.running with
  | none =>
    simp only [step,hr,Option.some.injEq] at h
    exact ⟨_,h.symm⟩
  | some r => simp only [step,hr,reduceCtorEq] at h

/-- Userland leaves every variable that no pass writes alone. -/
theorem value_installInto {name : String} (h : name∉passVariables) (o : Slot) :
    ((d.installInto builtin o).env builtin).value name=(d.env builtin).value name := by
  simp only [passVariables,List.mem_cons,List.not_mem_nil,or_false,not_or] at h
  obtain ⟨_,horder,ha,hb,_⟩ := h
  have hleft : name≠o.left := by
    cases o
    exacts [ha,hb]
  unfold Device.installInto
  split
  · exact value_set_of_ne horder
  · exact value_set_of_ne hleft
  · rfl
  · rfl
  · exact value_set_of_ne hleft
  · exact value_set_of_ne horder

/-- One step leaves every other variable alone. -/
theorem value_step {name : String} (h : name∉passVariables) {ev : Event}
    (hs : step u sh builtin d ev=some d') :
    (d'.env builtin).value name=(d.env builtin).value name := by
  cases ev with
  | powerLoss =>
    cases hs
    rfl
  | giveUp =>
    obtain ⟨_,hd⟩ := Option.ite_none_right_eq_some.mp hs
    cases hd
    rfl
  | markGood =>
    obtain ⟨r,_,rfl⟩ := Option.map_eq_some_iff.mp hs
    simp only [passVariables,List.mem_cons,List.not_mem_nil,or_false,not_or] at h
    obtain ⟨_,_,ha,hb,_⟩ := h
    refine value_set_of_ne ?_
    cases r
    exacts [ha,hb]
  | install =>
    obtain ⟨r,_,rfl⟩ := Option.map_eq_some_iff.mp hs
    exact value_installInto h r.other
  | boot firmware commands =>
    cases hr : d.running with
    | some r => simp only [step,hr,reduceCtorEq] at hs
    | none =>
      simp only [step,hr,Option.some.injEq] at hs
      subst hs
      exact value_bootCmd h commands

/-- The loops of all passes of a run see their words when that of the first one
does. -/
theorem seesWords_step (h : SeesWords sh (d.env builtin)) {ev : Event}
    (hs : step u sh builtin d ev=some d') : SeesWords sh (d'.env builtin) :=
  h.congr (value_step (by decide) hs)

/-- Only passes and losses of power: userland writes nothing. -/
def OnlyBoots (_ : Device) (e : Event) (_ : Device) : Prop :=
  e≠.markGood ∧ e≠.install ∧ e≠.giveUp

instance (d d' : Device) (e : Event) : Decidable (OnlyBoots d e d') :=
  inferInstanceAs (Decidable (e≠.markGood ∧ e≠.install ∧ e≠.giveUp))

end Greenhouse.BootDevice
