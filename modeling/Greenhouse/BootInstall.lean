import Greenhouse.BootDevice

/-!
# Installations and slot selection

The reset branch gives attempts back to both slots without knowing which one is
being written, so the counters protect nothing. What protects an incomplete
slot is the order: it is not in BOOT_ORDER from before its content is touched
until its image is complete, and no pass of the script changes the order. The
order never becomes empty, since the running slot stays in it; an empty order
would be replaced by both slots.
-/

namespace Greenhouse.BootInstall

open BootNumbers SpacedWords BootEnvironment CrashScript BootScript BootDevice TemporalRuns

/-- No pass of the script from the stored environment selects an incomplete
slot, after whatever commands it loses power. -/
def NeverBooted (u : Numbers) (sh : Expansion) (builtin : Env) (d : Device) : Prop :=
  ∀ x,d.complete x=false → ∀ firmware,
    ∀ b∈((bootCmd u sh firmware).trace (powerOn builtin d.stored)).visited,b.selected≠some x

/-- The slots in BOOT_ORDER. -/
def slotWords (builtin : Env) (d : Device) : List String := words (attempts (d.env builtin)).order

/-- The order keeps the running slot and leaves out every slot that is
incomplete or under installation. -/
structure OrderSafe (builtin : Env) (d : Device) : Prop where
  running : ∀ r,d.running=some r → r.name∈slotWords builtin d
  incomplete : ∀ x,d.complete x=false → x.name∉slotWords builtin d
  installing : ∀ r p,d.running=some r → d.install=some p → r.other.name∉slotWords builtin d
  finished : ∀ r,d.running=some r → d.install=some .written ∨ d.install=some .enabled →
    d.complete r.other=true
  idle : d.running=none → d.install=none

variable {u : Numbers} {sh : Expansion} {builtin : Env} {d d' : Device}

/-- No pass changes the order. -/
theorem order_cutPass {before after : Env} {b : Board} (h : CutPass u before after b) :
    (attempts after).order=(attempts before).order := by
  cases h with
  | kept stored => exact congrArg Attempts.order stored
  | spent _ _ stored => exact (congrArg Attempts.order stored).trans rfl
  | refilled _ _ _ stored => exact (congrArg Attempts.order stored).trans rfl

theorem words_withoutSlot (order : String) (x : Slot) :
    words (withoutSlot order x)=(words order).filter fun word => decide (word≠x.name) :=
  words_unwords fun _ hw => isWord_of_mem_words (List.mem_of_mem_filter hw)

theorem words_slotFirst (order : String) (x : Slot) :
    words (slotFirst order x)=x.name::(words order).filter fun word => decide (word≠x.name) := by
  refine words_unwords fun w hw => ?_
  rcases List.mem_cons.mp hw with rfl|hw
  · cases x <;> decide
  · exact isWord_of_mem_words (List.mem_of_mem_filter hw)

theorem name_ne_other (x : Slot) : x.name≠x.other.name :=
  fun h => other_ne x (name_injective h).symm

/-- Writing a counter does not change the order. -/
theorem slotWords_write_left (x : Slot) {value : String} (h : value≠"") :
    slotWords builtin (d.write builtin x.left value)=slotWords builtin d := by
  have ha : attempts ((d.write builtin x.left value).env builtin)=_ :=
    attempts_set_left (d.env builtin) x value h
  rw [slotWords,ha]
  rfl

/-- Writing an order with a word in it. -/
theorem slotWords_write_order {value w : String} (h : w∈words value) :
    slotWords builtin (d.write builtin "BOOT_ORDER" value)=words value := by
  have ha : attempts ((d.write builtin "BOOT_ORDER" value).env builtin)=_ :=
    attempts_set_order (d.env builtin) (ne_empty_of_mem_words h)
  rw [slotWords,ha]

/-- The order that an installation writes first. -/
theorem slotWords_withoutSlot {x y : Slot} (h : y.name∈slotWords builtin d) (hne : y.name≠x.name) :
    slotWords builtin
        (d.write builtin "BOOT_ORDER" (withoutSlot (attempts (d.env builtin)).order x))=
      (slotWords builtin d).filter fun word => decide (word≠x.name) := by
  have hwords : words (withoutSlot (attempts (d.env builtin)).order x)=
      (slotWords builtin d).filter fun word => decide (word≠x.name) := words_withoutSlot _ x
  have hmem : y.name∈words (withoutSlot (attempts (d.env builtin)).order x) := by
    rw [hwords]
    exact List.mem_filter.mpr ⟨h,decide_eq_true hne⟩
  exact (slotWords_write_order hmem).trans hwords

/-- The order that an installation writes last. -/
theorem slotWords_slotFirst (x : Slot) :
    slotWords builtin
        (d.write builtin "BOOT_ORDER" (slotFirst (attempts (d.env builtin)).order x))=
      x.name::(slotWords builtin d).filter fun word => decide (word≠x.name) := by
  have hwords : words (slotFirst (attempts (d.env builtin)).order x)=
      x.name::(slotWords builtin d).filter fun word => decide (word≠x.name) := words_slotFirst _ x
  have hmem : x.name∈words (slotFirst (attempts (d.env builtin)).order x) := by
    rw [hwords]
    exact List.mem_cons_self
  exact (slotWords_write_order hmem).trans hwords

/-- The invariant while the userland of a slot runs. -/
theorem orderSafe_running {r : Slot} (hr : d.running=some r) (hrun : r.name∈slotWords builtin d)
    (hinc : ∀ x,d.complete x=false → x.name∉slotWords builtin d)
    (hins : d.install≠none → r.other.name∉slotWords builtin d)
    (hfin : d.install=some .written ∨ d.install=some .enabled → d.complete r.other=true) :
    OrderSafe builtin d := by
  have heq : ∀ {r'},d.running=some r' → r'=r := fun hr' => Option.some.inj (hr'.symm.trans hr)
  refine ⟨fun r' hr' => heq hr' ▸ hrun,hinc,fun r' p hr' hp => ?_,fun r' hr' hf => ?_,fun hn => ?_⟩
  · rw [heq hr']
    exact hins (hp ▸ Option.some_ne_none p)
  · rw [heq hr']
    exact hfin hf
  · rw [hr] at hn
    cases hn

/-- A step of an installation keeps the order safe. -/
theorem OrderSafe.installInto (h : OrderSafe builtin d) {r : Slot} (hr : d.running=some r) :
    OrderSafe builtin (d.installInto builtin r.other) := by
  have hrun := h.running r hr
  have hkeep : r.name∈(slotWords builtin d).filter fun word => decide (word≠r.other.name) :=
    List.mem_filter.mpr ⟨hrun,decide_eq_true (name_ne_other r)⟩
  unfold Device.installInto
  cases hp : d.install with
  | none =>
    dsimp only
    have hslots : slotWords builtin {d.write builtin "BOOT_ORDER"
          (withoutSlot (attempts (d.env builtin)).order r.other) with install := some .removed}=
        (slotWords builtin d).filter fun word => decide (word≠r.other.name) :=
      slotWords_withoutSlot hrun (name_ne_other r)
    refine orderSafe_running hr ?_ (fun x hx => ?_) (fun _ => ?_) ?_
    · rw [hslots]
      exact hkeep
    · rw [hslots]
      exact fun hm => h.incomplete x hx (List.mem_of_mem_filter hm)
    · rw [hslots]
      exact fun hm => of_decide_eq_true (List.mem_filter.mp hm).2 rfl
    · rintro (hf|hf) <;> cases hf
  | some p =>
    have hout := h.installing r p hr hp
    cases p with
    | removed =>
      have hslots : slotWords builtin
          {d.write builtin r.other.left "0" with install := some .disabled}=slotWords builtin d :=
        slotWords_write_left r.other (by decide)
      refine orderSafe_running hr (hslots ▸ hrun) (hslots ▸ h.incomplete) (fun _ => hslots ▸ hout) ?_
      rintro (hf|hf) <;> cases hf
    | disabled =>
      refine orderSafe_running hr hrun (fun x hx => ?_) (fun _ => hout) ?_
      · dsimp only at hx
        rcases eq_or_eq_other x r with rfl|rfl
        · rw [if_neg (other_ne x).symm] at hx
          exact h.incomplete x hx
        · exact hout
      · rintro (hf|hf) <;> cases hf
    | writing =>
      refine orderSafe_running hr hrun (fun x hx => ?_) (fun _ => hout) fun _ => if_pos rfl
      dsimp only at hx
      split at hx
      · cases hx
      · exact h.incomplete x hx
    | written =>
      have hslots : slotWords builtin
          {d.write builtin r.other.left "3" with install := some .enabled}=slotWords builtin d :=
        slotWords_write_left r.other (by decide)
      exact orderSafe_running hr (hslots ▸ hrun) (hslots ▸ h.incomplete) (fun _ => hslots ▸ hout)
        fun _ => h.finished r hr (Or.inl hp)
    | enabled =>
      dsimp only
      have hcomplete := h.finished r hr (Or.inr hp)
      have hslots : slotWords builtin {d.write builtin "BOOT_ORDER"
            (slotFirst (attempts (d.env builtin)).order r.other) with install := none}=
          r.other.name::(slotWords builtin d).filter fun word => decide (word≠r.other.name) :=
        slotWords_slotFirst r.other
      refine orderSafe_running hr ?_ (fun x hx => ?_) (fun hn => absurd rfl hn) ?_
      · rw [hslots]
        exact List.mem_cons_of_mem _ hkeep
      · rw [hslots]
        intro hm
        rcases List.mem_cons.mp hm with hm|hm
        · rw [name_injective hm] at hx
          exact Bool.false_ne_true (hx.symm.trans hcomplete)
        · exact h.incomplete x hx (List.mem_of_mem_filter hm)
      · rintro (hf|hf) <;> cases hf

/-- One step keeps the order safe. -/
theorem OrderSafe.step (h : OrderSafe builtin d) (hsh : SeesWords sh (d.env builtin)) {e : Event}
    (hs : step u sh builtin d e=some d') : OrderSafe builtin d' := by
  cases e with
  | boot firmware commands =>
    obtain ⟨hoff,b,hcut,_,rfl⟩ := step_boot hs hsh
    have hslots : slotWords builtin (d.afterPass b)=slotWords builtin d :=
      congrArg words (order_cutPass hcut)
    have hnone : (d.afterPass b).install=none := h.idle hoff
    refine ⟨fun r hr => ?_,hslots ▸ h.incomplete,fun r p _ hp => ?_,fun r _ hf => ?_,fun _ => hnone⟩
    · rw [hslots]
      cases hcut with
      | kept _ started =>
        simp only [Device.afterPass,started,Option.isSome_none,Bool.false_eq_true,if_false,
          reduceCtorEq] at hr
      | spent choice selected =>
        dsimp only [Device.afterPass] at hr
        split at hr
        · rw [selected] at hr
          cases hr
          exact (choice_eq_some choice).1
        · cases hr
      | refilled _ _ started =>
        simp only [Device.afterPass,started,Option.isSome_none,Bool.false_eq_true,if_false,
          reduceCtorEq] at hr
    · rw [hnone] at hp
      cases hp
    · rw [hnone] at hf
      rcases hf with hf|hf <;> cases hf
  | powerLoss =>
    cases hs
    refine ⟨fun r hr => ?_,h.incomplete,fun r p hr _ => ?_,fun r hr _ => ?_,fun _ => rfl⟩ <;>
      cases hr
  | markGood =>
    obtain ⟨r,hr,rfl⟩ := Option.map_eq_some_iff.mp hs
    have hslots : slotWords builtin (d.write builtin r.left "3")=slotWords builtin d :=
      slotWords_write_left r (by decide)
    exact ⟨hslots ▸ h.running,hslots ▸ h.incomplete,hslots ▸ h.installing,h.finished,h.idle⟩
  | install =>
    obtain ⟨r,hr,rfl⟩ := Option.map_eq_some_iff.mp hs
    exact h.installInto hr
  | giveUp =>
    simp only [BootDevice.step,Option.ite_none_right_eq_some,Option.some.injEq] at hs
    obtain ⟨_,rfl⟩ := hs
    refine ⟨h.running,h.incomplete,fun r p _ hp => ?_,fun r _ hf => ?_,fun _ => rfl⟩
    · cases hp
    · rcases hf with hf|hf <;> cases hf

/-- A safe order is enough: the script selects only slots in the order. -/
theorem OrderSafe.neverBooted (h : OrderSafe builtin d) (hsh : SeesWords sh (d.env builtin)) :
    NeverBooted u sh builtin d := by
  intro x hx firmware b hb hsel
  have hcut := ((bootCmd_meets rfl rfl).visited b hb).cutPass hsh
  have hchoice : (attempts (d.env builtin)).choice u=some x := by
    cases hcut with
    | kept _ _ selected => exact selected x hsel
    | spent choice selected => exact Option.some.inj (selected.symm.trans hsel) ▸ choice
    | refilled _ selected => cases selected.symm.trans hsel
  exact h.incomplete x hx (choice_eq_some hchoice).1

/-- Along every run from any storage with both slots complete, no pass of the
boot script selects a slot whose content is incomplete. -/
theorem incomplete_never_booted (u : Numbers) (sh : Expansion) (builtin : Env)
    (stored : Option Env) (es : List Event) (hsh : SeesWords sh (stored.getD builtin)) :
    EachState (step u sh builtin) (NeverBooted u sh builtin) (Device.off stored) es :=
  globally_of_invariant (I:=fun d => OrderSafe builtin d ∧ SeesWords sh (d.env builtin))
    (G:=fun _ _ _ => True) (fun _ _ _ h _ hs => ⟨h.1.step h.2 hs,seesWords_step h.2 hs⟩)
    (fun _ _ h _ => h.1.neverBooted h.2) ⟨⟨nofun,nofun,nofun,nofun,fun _ => rfl⟩,hsh⟩
    (EachStep.trivial _ _)

/-- Power is lost while slot B is written. -/
def interruptedInstall : List Event :=
  [.boot none 40,.install,.install,.install,.powerLoss,.boot none 40]

/-- The half written slot is not booted. -/
theorem incomplete_never_booted_interruptedInstall :
    EachState (step uboot environmentFirst Env.empty) (NeverBooted uboot environmentFirst Env.empty)
      (Device.off none) interruptedInstall :=
  incomplete_never_booted uboot environmentFirst Env.empty none interruptedInstall
    (environmentFirst_spec.seesWords rfl)

example : (run (step uboot environmentFirst Env.empty) (Device.off none) interruptedInstall).map
    (fun d => (d.complete .b,d.starts))=some (false,[.a,.a]) := by
  decide +kernel

end Greenhouse.BootInstall
