import Greenhouse.BootInstall
import Greenhouse.BootCounting

/-!
# Recovery from every reachable state

Power may be lost after any command of the boot script and between any two
steps of an installation. In every state that a device can get into in this
way, some slot is still named by the order, and every slot that is named is
complete. So two passes that are not interrupted are enough to start a complete
slot, and the first of them resets unless it does so itself.
-/

namespace Greenhouse.BootReachable

open BootNumbers SpacedWords BootEnvironment CrashScript BootScript BootDevice BootInstall
open BootRecovery BootCounting TemporalRuns

/-- The order keeps the complete slots, and names one of them. -/
structure Recoverable (sh : Expansion) (builtin : Env) (d : Device) : Prop where
  safe : OrderSafe builtin d
  seesWords : SeesWords sh (d.env builtin)
  named : ∃ x : Slot,x.name∈slotWords builtin d

variable {u : Numbers} {sh : Expansion} {builtin : Env} {d d' : Device}

/-- A step that leaves no userland running leaves the order alone. -/
theorem slotWords_of_not_running (hsh : SeesWords sh (d.env builtin)) {e : Event}
    (hs : BootDevice.step u sh builtin d e=some d') (hr : d'.running=none) : slotWords builtin d'=slotWords builtin d := by
  cases e with
  | boot firmware commands =>
    obtain ⟨_,b,hcut,_,rfl⟩ := step_boot hs hsh
    exact congrArg words (order_cutPass hcut)
  | powerLoss =>
    cases hs
    rfl
  | markGood =>
    obtain ⟨r,hrunning,rfl⟩ := Option.map_eq_some_iff.mp hs
    exact absurd (hr.symm.trans hrunning) (Option.some_ne_none r).symm
  | install =>
    obtain ⟨r,hrunning,rfl⟩ := Option.map_eq_some_iff.mp hs
    have hsame : (d.installInto builtin r.other).running=d.running := by
      unfold Device.installInto
      split <;> rfl
    rw [hsame,hrunning] at hr
    cases hr
  | giveUp =>
    simp only [BootDevice.step,Option.ite_none_right_eq_some,Option.some.injEq] at hs
    obtain ⟨_,rfl⟩ := hs
    rfl

/-- One step keeps a device recoverable. -/
theorem Recoverable.step (h : Recoverable sh builtin d) {e : Event}
    (hs : BootDevice.step u sh builtin d e=some d') : Recoverable sh builtin d' := by
  have hsafe := h.safe.step h.seesWords hs
  refine ⟨hsafe,seesWords_step h.seesWords hs,?_⟩
  cases hr : d'.running with
  | some r => exact ⟨r,hsafe.running r hr⟩
  | none =>
    rw [slotWords_of_not_running h.seesWords hs hr]
    exact h.named

/-- A slot that is chosen from the order of a safe device is complete. -/
theorem complete_of_choice {v : Attempts} {x : Slot} (h : OrderSafe builtin d)
    (ho : words v.order=slotWords builtin d) (hc : v.choice u=some x) : d.complete x=true := by
  refine eq_true_of_ne_false fun hincomplete => h.incomplete x hincomplete ?_
  rw [←ho]
  exact (choice_eq_some hc).1

/-- Along every run from any storage whose order names a slot, in every state,
the next pass that is not interrupted starts a complete slot, or it resets and
the pass behind it starts one. -/
theorem starts_complete_slot (u : Numbers) (h3 : u.positive "3"=true) (sh : Expansion)
    (builtin : Env) (stored : Option Env) (es : List Event) (d : Device)
    (hsh : SeesWords sh (stored.getD builtin)) (hnames : NamesSlot (stored.getD builtin))
    (h : run (BootDevice.step u sh builtin) (Device.off stored) es=some d)
    (first second : Option String) :
    ∃ x,d.complete x=true ∧ (StartsSlot u sh builtin d.stored x first ∨
      Resets u sh builtin d.stored first ∧
        StartsSlot u sh builtin (pass u sh first builtin d.stored).stored x second) := by
  have hstart : Recoverable sh builtin (Device.off stored) :=
    ⟨⟨nofun,nofun,nofun,nofun,fun _ => rfl⟩,hsh,namesSlot_iff.mp hnames⟩
  have hreach : Recoverable sh builtin d :=
    (eachState_of_invariant (G:=fun _ _ _ => True) (fun _ _ _ hi _ hs => hi.step hs) hstart
      (EachStep.trivial _ _)).final h
  have hfirst : SeesWords sh (d.stored.getD builtin) := hreach.seesWords
  cases hc : (attempts (d.stored.getD builtin)).choice u with
  | some x => exact ⟨x,complete_of_choice hreach.safe rfl hc,Or.inl ((startsSlot_iff hfirst).mpr hc)⟩
  | none =>
    have hrefilled : attempts ((pass u sh first builtin d.stored).stored.getD builtin)=
        (attempts (d.stored.getD builtin)).refill := attempts_after_reset hfirst hc
    have hsome : ((attempts (d.stored.getD builtin)).refill.choice u).isSome=true :=
      (choice_refill_isSome_iff h3).mpr hreach.named
    obtain ⟨x,hx⟩ := Option.isSome_iff_exists.mp hsome
    have hcomplete : d.complete x=true :=
      complete_of_choice (v:=(attempts (d.stored.getD builtin)).refill) hreach.safe rfl hx
    refine ⟨x,hcomplete,Or.inr ⟨(resets_iff hfirst).mpr hc,
      (startsSlot_iff (hfirst.pass u first)).mpr ?_⟩⟩
    rw [hrefilled]
    exact hx

/-- Slot B is half written and slot A has used up its attempts. -/
def worstCase : List Event :=
  [.boot none 40,.install,.install,.install,.powerLoss,.boot none 40,.powerLoss,.boot none 40,
    .powerLoss]

/-- The next pass resets, and the one behind it starts slot A. -/
theorem starts_complete_slot_worstCase :
    ∃ d,run (BootDevice.step uboot environmentFirst Env.empty) (Device.off none) worstCase=some d ∧
      ∃ x,d.complete x=true ∧ (StartsSlot uboot environmentFirst Env.empty d.stored x none ∨
        Resets uboot environmentFirst Env.empty d.stored none ∧
          StartsSlot uboot environmentFirst Env.empty (pass uboot environmentFirst none Env.empty d.stored).stored x none) :=
  ⟨_,rfl,starts_complete_slot uboot (by decide) environmentFirst Env.empty none worstCase _
    (environmentFirst_spec.seesWords rfl)
    ⟨"A",by decide,Or.inl rfl⟩ rfl none none⟩

end Greenhouse.BootReachable
