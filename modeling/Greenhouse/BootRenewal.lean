import Greenhouse.BootMarkGood
import Greenhouse.TemporalRuns

/-!
# Healthy boots

On a healthy boot the boot script resets until a kernel starts, and
boot-mark-good.sh finds the selected slot and exits with 0. The variable that it
sets is written in lower case, so the counter of the boot script stays used up.
-/

namespace Greenhouse.BootRenewal

open BootNumbers SpacedWords BootEnvironment BootScript BootMarkGood TemporalRuns

/-- A device between two healthy boots. -/
structure Device where
  /-- The content of uboot.env, if the file exists. -/
  stored : Option Env
  /-- The slots booted so far, in order. -/
  booted : List Slot

/-- A healthy boot: the command lines that the firmware gives to the passes of
the boot script, and whether fw_setenv works. -/
structure Boot where
  /-- One command line for each pass. -/
  firmwares : List (Option String)
  /-- Whether fw_setenv writes its variable. -/
  works : Bool

/-- The first pass that starts a kernel. -/
def kernelPass (u : Numbers) (sh : Expansion) (builtin : Env) : Option Env → List (Option String) → Option Board
  | _,[] => none
  | stored,firmware::firmwares =>
    if (pass u sh firmware builtin stored).started.isSome=true then
      some (pass u sh firmware builtin stored)
    else kernelPass u sh builtin (pass u sh firmware builtin stored).stored firmwares

/-- One boot; none when no kernel starts, or boot-mark-good.sh does not find the
selected slot, or it fails. -/
def step (u : Numbers) (sh : Expansion) (builtin : Env) (d : Device) (boot : Boot) : Option Device :=
  (kernelPass u sh builtin d.stored boot.firmwares).bind fun b =>
    match b.selected,b.started with
    | some x,some e =>
      let marked := bootMarkGood (e.value "bootargs") boot.works (b.stored.getD builtin)
      if activeSlot (e.value "bootargs")=some x ∧ marked.1=0 then
        some ⟨some marked.2,d.booted++[x]⟩
      else none
    | _,_ => none

/-- The counter of the slot booted last is 3 again, and all boots were of the
same slot. -/
def Renewed (builtin : Env) (d : Device) : Prop :=
  (∀ x,d.booted.getLast?=some x → (d.stored.getD builtin).value x.left="3") ∧
    ∀ x∈d.booted,∀ y∈d.booted,x=y

/-- The attempts that the pass with a choice finds: those of the first pass,
or the ones given back by a reset. -/
def Found (u : Numbers) (before now : Attempts) : Prop :=
  now=before ∨ before.choice u=none ∧ now=before.refill

variable {u : Numbers} {sh : Expansion} {builtin : Env} {d d' : Device} {boot : Boot}

/-- A boot starts the slot chosen from the attempts that were found, and uses
up one of them. -/
theorem kernelPass_eq_some {stored : Option Env} {firmwares : List (Option String)} {b : Board}
    (hsh : SeesWords sh (stored.getD builtin))
    (h : kernelPass u sh builtin stored firmwares=some b) :
    ∃ x now,b.selected=some x ∧ Found u (attempts (stored.getD builtin)) now ∧
      now.choice u=some x ∧ HasAttempts (b.stored.getD builtin) ∧
      attempts (b.stored.getD builtin)=now.spend u x := by
  induction firmwares generalizing stored with
  | nil => cases h
  | cons firmware firmwares ih =>
    have hnext := hsh.pass u firmware
    have hpass := finished_pass u sh firmware builtin stored
    unfold kernelPass at h
    generalize pass u sh firmware builtin stored=t at hpass hnext h
    cases hpass with
    | @started env x choice =>
      dsimp only [powerOn] at choice h
      rw [selection_prepared,hsh.selection] at choice
      rw [if_pos Option.isSome_some,Option.some.injEq] at h
      subst h
      exact ⟨x,_,rfl,Or.inl rfl,choice,hasAttempts_chosen,attempts_chosen⟩
    | reset choice =>
      dsimp only [powerOn] at choice hnext h
      rw [selection_prepared,hsh.selection] at choice
      obtain ⟨x,now,hx,hfound,hnow,hrest⟩ := ih hnext h
      refine ⟨x,now,hx,Or.inr ⟨choice,?_⟩,hnow,hrest⟩
      have hrefilled : attempts (refilled (prepared firmware (stored.getD builtin)))=
        (attempts (stored.getD builtin)).refill := attempts_refilled
      rw [Option.getD_some,hrefilled] at hfound
      rcases hfound with hsame|⟨_,hrefill⟩
      · exact hsame
      · exact hrefill

/-- No pass of a boot changes what the loop sees. -/
theorem seesWords_kernelPass {stored : Option Env} {firmwares : List (Option String)} {b : Board}
    (hsh : SeesWords sh (stored.getD builtin)) (h : kernelPass u sh builtin stored firmwares=some b) :
    SeesWords sh (b.stored.getD builtin) := by
  induction firmwares generalizing stored with
  | nil => cases h
  | cons firmware firmwares ih =>
    have hnext := hsh.pass u firmware
    unfold kernelPass at h
    split at h
    · cases h
      exact hnext
    · exact ih hnext h

/-- The script sets none of the shared variables. -/
theorem counterVar_unshared (x : Slot) : Unshared (counterVar x) := by
  cases x <;> decide

/-- A healthy boot leaves the counter of its slot used up. -/
theorem step_eq_some (hsh : SeesWords sh (d.stored.getD builtin))
    (h : step u sh builtin d boot=some d') :
    ∃ x now,d'.booted=d.booted++[x] ∧ Found u (attempts (d.stored.getD builtin)) now ∧
      now.choice u=some x ∧ (d'.stored.getD builtin).value x.left=u.minusOne (now.left x) := by
  obtain ⟨b,hb,hs⟩ := Option.bind_eq_some_iff.mp h
  obtain ⟨x,now,hx,hfound,hnow,hvalues,hspend⟩ := kernelPass_eq_some hsh hb
  refine ⟨x,now,?_⟩
  rw [hx] at hs
  cases he : b.started with
  | none =>
    rw [he] at hs
    cases hs
  | some e =>
    rw [he] at hs
    simp only [Option.ite_none_right_eq_some,Option.some.injEq] at hs
    obtain ⟨⟨hactive,hexit⟩,rfl⟩ := hs
    refine ⟨rfl,hfound,hnow,?_⟩
    have hleft : (b.stored.getD builtin).value x.left=u.minusOne (now.left x) := by
      have hv := congrFun (congrArg Attempts.left (hvalues.attempts.symm.trans hspend)) x
      exact hv.trans (if_pos rfl)
    rw [bootMarkGood_exit hactive hexit,Option.getD_some,
      value_set_of_ne ((counterVar_unshared x).left_ne x)]
    exact hleft

/-- No boot changes what the loop of a later one sees. -/
theorem seesWords_step (hsh : SeesWords sh (d.stored.getD builtin))
    (h : step u sh builtin d boot=some d') : SeesWords sh (d'.stored.getD builtin) := by
  obtain ⟨b,hb,hs⟩ := Option.bind_eq_some_iff.mp h
  have hkernel := seesWords_kernelPass hsh hb
  cases hx : b.selected with
  | none =>
    rw [hx] at hs
    cases hs
  | some x =>
    cases he : b.started with
    | none =>
      rw [hx,he] at hs
      cases hs
    | some e =>
      rw [hx,he] at hs
      simp only [Option.ite_none_right_eq_some,Option.some.injEq] at hs
      obtain ⟨⟨hactive,hexit⟩,rfl⟩ := hs
      rw [bootMarkGood_exit hactive hexit]
      exact hkernel.congr (value_set_of_ne (by cases x <;> decide))

/-- Three is one less than four only. -/
theorem minusOne_eq_three {s : String} : uboot.minusOne s="3" ↔ hexValue s=4 := by
  have h : uboot.minusOne s="3" ↔ hexValue s-1=3 := hexNumeral_eq_three
  rw [h]
  omega

/-- The first boot renews its counter when that was four. -/
theorem renewed_first (hsh : SeesWords sh (d.stored.getD builtin)) (hd : d.booted=[])
    (h : step uboot sh builtin d boot=some d') :
    Renewed builtin d' ↔ ∃ x,(attempts (d.stored.getD builtin)).choice uboot=some x ∧
      hexValue ((attempts (d.stored.getD builtin)).left x)=4 := by
  obtain ⟨x,now,hbooted,hfound,hnow,hleft⟩ := step_eq_some hsh h
  rw [hd,List.nil_append] at hbooted
  have hrenewed : Renewed builtin d' ↔ hexValue (now.left x)=4 := by
    rw [←minusOne_eq_three,←hleft,Renewed,hbooted]
    constructor
    · exact fun hr => hr.1 x rfl
    · refine fun hl => ⟨fun y hy => ?_,fun y hy z hz => ?_⟩
      · cases hy
        exact hl
      · rw [List.mem_singleton.mp hy,List.mem_singleton.mp hz]
  rw [hrenewed]
  rcases hfound with rfl|⟨hnone,rfl⟩
  · constructor
    · exact fun hl => ⟨x,hnow,hl⟩
    · rintro ⟨y,hy,hl⟩
      rw [hnow,Option.some.injEq] at hy
      exact hy ▸ hl
  · constructor
    · intro hl
      have hthree : hexValue "3"≠4 := by decide
      exact absurd hl hthree
    · rintro ⟨y,hy,_⟩
      rw [hnone] at hy
      cases hy

/-- A boot after a renewed one is not renewed. -/
theorem not_renewed_next {x : Slot} (hsh : SeesWords sh (d.stored.getD builtin))
    (hd : d.booted=[x]) (hr : Renewed builtin d)
    (h : step uboot sh builtin d boot=some d') : ¬Renewed builtin d' := by
  obtain ⟨y,now,hbooted,hfound,_,hleft⟩ := step_eq_some hsh h
  rw [hd] at hbooted
  intro hr'
  have hxy : x=y := by
    refine hr'.2 x ?_ y ?_
    · rw [hbooted]
      exact List.mem_cons_self
    · rw [hbooted]
      exact List.mem_cons_of_mem _ (List.mem_singleton_self y)
  subst hxy
  have hx : (d.stored.getD builtin).value x.left="3" := hr.1 x (by rw [hd]; rfl)
  have hthree : now.left x="3" := by
    rcases hfound with rfl|⟨_,rfl⟩
    · dsimp only [attempts]
      rw [hx]
      rfl
    · rfl
  have hnext := hr'.1 x (by rw [hbooted]; rfl)
  rw [hleft,minusOne_eq_three,hthree] at hnext
  exact absurd hnext (by decide)

/-- Along a sequence of healthy boots from any environment, the counters are
renewed only when there is no boot, or one boot of a slot whose counter was
four. -/
theorem renewed_iff (sh : Expansion) (builtin : Env) (stored : Option Env) (boots : List Boot)
    (hsh : SeesWords sh (stored.getD builtin))
    (h : (run (step uboot sh builtin) ⟨stored,[]⟩ boots).isSome=true) :
    EachState (step uboot sh builtin) (Renewed builtin) ⟨stored,[]⟩ boots ↔
      boots=[] ∨ boots.length=1 ∧ ∃ x,(attempts (stored.getD builtin)).choice uboot=some x ∧
        hexValue ((attempts (stored.getD builtin)).left x)=4 := by
  have hinit : Renewed builtin ⟨stored,[]⟩ := ⟨nofun,nofun⟩
  cases boots with
  | nil => exact ⟨fun _ => Or.inl rfl,fun _ => hinit⟩
  | cons boot rest =>
    obtain ⟨d,hd⟩ := Option.isSome_iff_exists.mp h
    obtain ⟨t,ht,hrun⟩ := run_cons.mp hd
    have hfirst := renewed_first (d:=⟨stored,[]⟩) hsh rfl ht
    cases rest with
    | nil =>
      constructor
      · exact fun hall => Or.inr ⟨rfl,hfirst.mp (hall.2 t ht)⟩
      · rintro (hnil|⟨_,hfour⟩)
        · cases hnil
        · refine ⟨hinit,fun t' ht' => ?_⟩
          rw [ht,Option.some.injEq] at ht'
          exact ht' ▸ hfirst.mpr hfour
    | cons second rest =>
      obtain ⟨w,hw,_⟩ := run_cons.mp hrun
      obtain ⟨x,_,hbooted,_⟩ := step_eq_some (d:=⟨stored,[]⟩) hsh ht
      constructor
      · intro hall
        have ht' := hall.2 t ht
        exact absurd (ht'.2 w hw).head (not_renewed_next (seesWords_step hsh ht) hbooted ht'.head hw)
      · rintro (hnil|⟨hone,_⟩)
        · cases hnil
        · cases hone

/-- A counter of four is renewed by the first boot. -/
theorem renewed_iff_four :
    EachState (step uboot environmentFirst Env.empty) (Renewed Env.empty)
      ⟨some (Env.empty.set "BOOT_A_LEFT" "4"),[]⟩ [⟨[none],true⟩] :=
  (renewed_iff environmentFirst Env.empty (some (Env.empty.set "BOOT_A_LEFT" "4")) [⟨[none],true⟩]
    (environmentFirst_spec.seesWords (by decide)) (by decide +kernel)).mpr (Or.inr ⟨rfl,.a,by decide +kernel,by decide⟩)

/-- Four boots without a command line from the firmware. -/
def fourBoots : List Boot := List.replicate 4 ⟨[none],true⟩

/-- From a fresh environment, slot A boots three times and then slot B, though
boot-mark-good.sh succeeds after each boot. -/
theorem not_renewed_fourBoots :
    (run (step uboot environmentFirst Env.empty) ⟨none,[]⟩ fourBoots).map Device.booted=some [.a,.a,.a,.b] ∧
      ¬EachState (step uboot environmentFirst Env.empty) (Renewed Env.empty) ⟨none,[]⟩ fourBoots := by
  have hboots : (run (step uboot environmentFirst Env.empty) ⟨none,[]⟩ fourBoots).map Device.booted=
      some [.a,.a,.a,.b] := by
    decide +kernel
  refine ⟨hboots,fun h => ?_⟩
  obtain ⟨d,hd,hbooted⟩ := Option.map_eq_some_iff.mp hboots
  have hsame := (h.final hd).2
  rw [hbooted] at hsame
  exact absurd (hsame .a (by decide) .b (by decide)) (by decide)

end Greenhouse.BootRenewal
