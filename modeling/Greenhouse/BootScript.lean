import Greenhouse.BootEnvironment
import Greenhouse.CrashScript

/-!
# The boot script

The script loads its environment, saves it three times on the way, and starts
the kernel of the selected slot or resets. Storage changes only at saveenv.
The messages and the loading of the kernel image leave the environment and the
storage alone and are left out. The loop variable is local to the shell, and
what its name expands to when a value of that name is stored is up to U-Boot.
-/

namespace Greenhouse.BootScript

open BootNumbers SpacedWords BootEnvironment CrashScript

/-- A board during one pass of the script. -/
structure Board where
  /-- The environment in memory. -/
  env : Env
  /-- The content of uboot.env, if the file exists. -/
  stored : Option Env
  /-- The slot this pass has selected. -/
  selected : Option Slot
  /-- The environment the kernel was started with. -/
  started : Option Env

/-- A board after power-on: the stored environment, or the one built in. -/
def powerOn (builtin : Env) (stored : Option Env) : Board := ⟨stored.getD builtin,stored,none,none⟩

/-- setenv with a value computed from the environment. -/
def setenv (name : String) (value : Env → String) : Script Board String :=
  .command fun b => {b with env := b.env.set name (value b.env)}

/-- setenv without a value. -/
def unsetenv (name : String) : Script Board String :=
  .command fun b => {b with env := b.env.unset name}

/-- saveenv writes the whole environment at once. -/
def saveenv : Script Board String := .command fun b => {b with stored := some b.env}

/-- fdt get value bootargs, where the firmware has passed a command line. -/
def withBootargs (firmware : Option String) (e : Env) : Env :=
  match firmware with
  | some bootargs => e.set "bootargs" bootargs
  | none => e

/-- The first line of the script. -/
def fdtBootargs (firmware : Option String) : Script Board String :=
  .command fun b => {b with env := withBootargs firmware b.env}

/-- test -n "${name}" || setenv name value -/
def setDefault (name value : String) : Script Board String :=
  .branch (fun b => decide (b.env.value name≠"")) .skip (setenv name fun _ => value)

/-- What the shell makes of ${BOOT_SLOT} in a round of the loop, from the stored
value of that name and the word of the round. -/
abbrev Expansion := String → String → String

/-- The shell looks up the environment before its own variables. -/
def EnvironmentFirst (sh : Expansion) : Prop :=
  ∀ stored word,sh stored word=if stored="" then word else stored

/-- In every round the loop sees its word: the shell prefers its own variables,
or the environment has no value that it would prefer. -/
def SeesWords (sh : Expansion) (e : Env) : Prop := ∀ word,sh (e.value "BOOT_SLOT") word=word

/-- The expansion by the environment. -/
def environmentFirst : Expansion := fun stored word => if stored="" then word else stored

theorem environmentFirst_spec : EnvironmentFirst environmentFirst := fun _ _ => rfl

theorem EnvironmentFirst.seesWords {sh : Expansion} {e : Env} (h : EnvironmentFirst sh)
    (he : e.value "BOOT_SLOT"="") : SeesWords sh e := fun word => (h _ word).trans (if_pos he)

/-- The commands that select a slot with attempts left. -/
def trySlot (u : Numbers) (x : Slot) : Script Board String :=
  .branch (fun b => u.positive (b.env.value x.left))
    (.block
      [setenv x.left fun e => u.minusOne (e.value x.left),
        .command fun b => {b with env := b.env.set "raucslot" x.name,selected := some x},
        setenv "rootpart" fun _ => x.part])
    .skip

/-- One round of the loop over BOOT_ORDER. -/
def considerSlot (u : Numbers) (sh : Expansion) (word : String) : Script Board String :=
  .branch (fun b => decide (b.env.value "raucslot"=""))
    (.branch (fun b => decide ("x"++sh (b.env.value "BOOT_SLOT") word="xA")) (trySlot u .a)
      (.branch (fun b => decide ("x"++sh (b.env.value "BOOT_SLOT") word="xB")) (trySlot u .b) .skip))
    .skip

/-- The branch without a bootable slot. -/
def resetSlots : Script Board String :=
  .branch (fun b => decide (b.env.value "raucslot"=""))
    (.block
      [setenv "BOOT_A_LEFT" fun _ => "3",setenv "BOOT_B_LEFT" fun _ => "3",saveenv,.leave id])
    .skip

/-- The command line of the kernel. -/
def commandLine (e : Env) : String :=
  e.value "bootargs"++" root=/dev/mmcblk0p"++e.value "rootpart"++
    " rootfstype=ext4 rootwait rauc.slot="++e.value "raucslot"

/-- The kernel is started with the environment. -/
def startKernel : Script Board String := .leave fun b => {b with started := some b.env}

/-- boot.cmd -/
def bootCmd (u : Numbers) (sh : Expansion) (firmware : Option String) : Script Board String :=
  .block
    [fdtBootargs firmware,
      .branch (fun b => b.stored.isNone) saveenv .skip,
      setDefault "BOOT_ORDER" "A B",
      setDefault "BOOT_A_LEFT" "3",
      setDefault "BOOT_B_LEFT" "3",
      saveenv,
      unsetenv "raucslot",
      .each (fun b => words (b.env.value "BOOT_ORDER")) (considerSlot u sh),
      resetSlots,
      saveenv,
      setenv "bootargs" commandLine,
      startKernel]

/-- The environment of the second saveenv. -/
def prepared (firmware : Option String) (e : Env) : Env :=
  (((withBootargs firmware e).setDefault "BOOT_ORDER" "A B").setDefault "BOOT_A_LEFT" "3").setDefault
    "BOOT_B_LEFT" "3"

/-- The environment after a slot has been selected. -/
def chosen (u : Numbers) (e : Env) (x : Slot) : Env :=
  (((e.unset "raucslot").set x.left (u.minusOne (e.value x.left))).set "raucslot" x.name).set
    "rootpart" x.part

/-- The environment after both counters have been reset. -/
def refilled (e : Env) : Env :=
  ((e.unset "raucslot").set "BOOT_A_LEFT" "3").set "BOOT_B_LEFT" "3"

/-- The environment the kernel is started with. -/
def kernelEnv (e : Env) : Env := e.set "bootargs" (commandLine e)

/-- The slot that the round of a word lets boot. -/
def roundSlot (u : Numbers) (sh : Expansion) (e : Env) (word : String) : Option Slot :=
  (attempts e).bootable u (sh (e.value "BOOT_SLOT") word)

/-- The slot that the loop selects, in the first round that lets one boot. -/
def selection (u : Numbers) (sh : Expansion) (e : Env) : Option Slot :=
  (words (attempts e).order).findSome? (roundSlot u sh e)

/-- The variables that a pass may write. -/
def passVariables : List String :=
  ["bootargs","BOOT_ORDER","BOOT_A_LEFT","BOOT_B_LEFT","raucslot","rootpart"]

/-- Everything a pass can look like after one of its commands. -/
inductive Progress (u : Numbers) (sh : Expansion) (firmware : Option String) (b : Board) :
    Board → Prop
  | begun {env : Env} {stored : Option Env}
    (saved : stored=b.stored ∨ stored=some (withBootargs firmware b.env) ∨
      stored=some (prepared firmware b.env)) :
    Progress u sh firmware b ⟨env,stored,none,none⟩
  | selected {env : Env} {x : Slot} (choice : selection u sh (prepared firmware b.env)=some x) :
    Progress u sh firmware b ⟨env,some (prepared firmware b.env),some x,none⟩
  | spent {env : Env} {x : Slot} (choice : selection u sh (prepared firmware b.env)=some x) :
    Progress u sh firmware b ⟨env,some (chosen u (prepared firmware b.env) x),some x,none⟩
  | started {env : Env} {x : Slot} (choice : selection u sh (prepared firmware b.env)=some x) :
    Progress u sh firmware b ⟨env,some (chosen u (prepared firmware b.env) x),some x,
      some (kernelEnv (chosen u (prepared firmware b.env) x))⟩
  | refilled {env : Env} (choice : selection u sh (prepared firmware b.env)=none) :
    Progress u sh firmware b ⟨env,some (refilled (prepared firmware b.env)),none,none⟩

/-- How an uninterrupted pass ends. -/
inductive Finished (u : Numbers) (sh : Expansion) (firmware : Option String) (b : Board) :
    Board → Prop
  | started {env : Env} {x : Slot} (choice : selection u sh (prepared firmware b.env)=some x) :
    Finished u sh firmware b ⟨env,some (chosen u (prepared firmware b.env) x),some x,
      some (kernelEnv (chosen u (prepared firmware b.env) x))⟩
  | reset {env : Env} (choice : selection u sh (prepared firmware b.env)=none) :
    Finished u sh firmware b ⟨env,some (refilled (prepared firmware b.env)),none,none⟩

section Pass

variable {u : Numbers} {sh : Expansion} {firmware : Option String} {e : Env} {x : Slot}

/-- The prepared values are the ones read with their defaults. -/
theorem order_prepared :
    (attempts (prepared firmware e)).order=(prepared firmware e).value "BOOT_ORDER" := by
  have hv : (prepared firmware e).value "BOOT_ORDER"=
      orDefault "A B" ((withBootargs firmware e).value "BOOT_ORDER") := by
    simp (disch := decide) only [prepared,value_setDefault_of_ne,value_setDefault_self]
  rw [attempts,hv,orDefault_idem]

theorem left_prepared :
    (attempts (prepared firmware e)).left x=(prepared firmware e).value x.left := by
  have hv : (prepared firmware e).value x.left=
      orDefault "3" ((withBootargs firmware e).value x.left) := by
    cases x <;>
      simp (disch := decide) only [prepared,Slot.left,value_setDefault_of_ne,value_setDefault_self]
  dsimp only [attempts]
  rw [hv,orDefault_idem]

/-- Nothing before the selection changes the attempts. -/
theorem attempts_withBootargs : attempts (withBootargs firmware e)=attempts e := by
  cases firmware with
  | none => rfl
  | some bootargs => exact attempts_set (by decide)

theorem attempts_prepared : attempts (prepared firmware e)=attempts e := by
  have ha := attempts_setDefault_left
    ((withBootargs firmware e).setDefault "BOOT_ORDER" "A B") .a
  have hb := attempts_setDefault_left
    (((withBootargs firmware e).setDefault "BOOT_ORDER" "A B").setDefault "BOOT_A_LEFT" "3") .b
  exact hb.trans (ha.trans ((attempts_setDefault_order _).trans attempts_withBootargs))

/-- What a selection sets and leaves alone. -/
theorem value_chosen_rootpart : (chosen u e x).value "rootpart"=x.part := by
  rw [chosen,value_set_self]

theorem value_chosen_raucslot : (chosen u e x).value "raucslot"=x.name := by
  rw [chosen,value_set_of_ne (by decide),value_set_self]

theorem value_chosen_bootargs : (chosen u e x).value "bootargs"=e.value "bootargs" := by
  rw [chosen,value_set_of_ne (by decide),value_set_of_ne (by decide),
    value_set_of_ne (by cases x <;> decide),value_unset_of_ne (by decide)]

/-- Only the firmware changes the command line that is saved. -/
theorem value_prepared_bootargs :
    (prepared firmware e).value "bootargs"=(withBootargs firmware e).value "bootargs" := by
  simp (disch := decide) only [prepared,value_setDefault_of_ne]

theorem value_refilled_bootargs : (refilled e).value "bootargs"=e.value "bootargs" := by
  rw [refilled,value_set_of_ne (by decide),value_set_of_ne (by decide),
    value_unset_of_ne (by decide)]

/-- The command line of the firmware is one variable. -/
theorem value_withBootargs {name : String} (h : name≠"bootargs") :
    (withBootargs firmware e).value name=e.value name := by
  cases firmware with
  | none => rfl
  | some line => exact value_set_of_ne h

/-- A pass leaves every other variable alone. -/
theorem value_prepared {name : String} (h : name∉passVariables) :
    (prepared firmware e).value name=e.value name := by
  simp only [passVariables,List.mem_cons,List.not_mem_nil,or_false,not_or] at h
  obtain ⟨hbootargs,horder,ha,hb,_⟩ := h
  rw [prepared,value_setDefault_of_ne hb,value_setDefault_of_ne ha,value_setDefault_of_ne horder,
    value_withBootargs hbootargs]

theorem value_chosen {name : String} (h : name∉passVariables) :
    (chosen u e x).value name=e.value name := by
  simp only [passVariables,List.mem_cons,List.not_mem_nil,or_false,not_or] at h
  obtain ⟨_,_,ha,hb,hraucslot,hrootpart⟩ := h
  rw [chosen,value_set_of_ne hrootpart,value_set_of_ne hraucslot,
    value_set_of_ne (by cases x; exacts [ha,hb]),value_unset_of_ne hraucslot]

theorem value_refilled {name : String} (h : name∉passVariables) :
    (refilled e).value name=e.value name := by
  simp only [passVariables,List.mem_cons,List.not_mem_nil,or_false,not_or] at h
  obtain ⟨_,_,ha,hb,hraucslot,_⟩ := h
  rw [refilled,value_set_of_ne hb,value_set_of_ne ha,value_unset_of_ne hraucslot]

/-- Nothing before the loop changes what it selects. -/
theorem selection_prepared : selection u sh (prepared firmware e)=selection u sh e := by
  have hslot : (prepared firmware e).value "BOOT_SLOT"=e.value "BOOT_SLOT" :=
    value_prepared (by decide)
  have hround : roundSlot u sh (prepared firmware e)=roundSlot u sh e := by
    funext word
    rw [roundSlot,roundSlot,attempts_prepared,hslot]
  rw [selection,selection,attempts_prepared,hround]

/-- A loop that sees its words selects the choice. -/
theorem SeesWords.selection (h : SeesWords sh e) :
    BootScript.selection u sh e=(attempts e).choice u := by
  have hround : roundSlot u sh e=(attempts e).bootable u := by
    funext word
    rw [roundSlot,h]
  rw [BootScript.selection,hround]
  rfl

/-- What the loop sees depends on one variable. -/
theorem SeesWords.congr {e' : Env} (h : SeesWords sh e)
    (he : e'.value "BOOT_SLOT"=e.value "BOOT_SLOT") : SeesWords sh e' := fun word => by
  rw [he]
  exact h word

/-- A selection uses up one attempt. -/
theorem attempts_chosen : attempts (chosen u (prepared firmware e) x)=(attempts e).spend u x := by
  rw [chosen,attempts_set (by decide),attempts_set (by decide),
    attempts_set_left _ x _ (u.minusOne_ne_empty _),attempts_unset (by decide),←left_prepared,
    attempts_prepared]
  rfl

/-- The reset branch gives both slots three attempts. -/
theorem attempts_refilled : attempts (refilled (prepared firmware e))=(attempts e).refill := by
  have hu : attempts ((prepared firmware e).unset "raucslot")=attempts e :=
    (attempts_unset (by decide)).trans attempts_prepared
  have ha := attempts_set_left ((prepared firmware e).unset "raucslot") .a "3" (by decide)
  have hb := attempts_set_left (((prepared firmware e).unset "raucslot").set "BOOT_A_LEFT" "3") .b
    "3" (by decide)
  dsimp only [Slot.left] at ha hb
  rw [refilled,hb,ha,hu]
  ext y
  · rfl
  · cases y <;> rfl

end Pass

section Spec

variable {u : Numbers} {sh : Expansion} {firmware : Option String} {b : Board}

/-- The state of the loop: nothing is selected and the selection is still among
the remaining words, or it has been made. -/
def LoopState (u : Numbers) (sh : Expansion) (firmware : Option String) (b : Board) (rest : List String)
    (t : Board) : Prop :=
  t.stored=some (prepared firmware b.env) ∧ t.started=none ∧
    ((t.selected=none ∧ t.env=(prepared firmware b.env).unset "raucslot" ∧
      selection u sh (prepared firmware b.env)=
        rest.findSome? (roundSlot u sh (prepared firmware b.env))) ∨
    ∃ x,selection u sh (prepared firmware b.env)=some x ∧ t.selected=some x ∧
      t.env=chosen u (prepared firmware b.env) x)

/-- The slots of the two prefixed comparisons. -/
theorem prefixed_eq_iff {word name : String} : "x"++word="x"++name ↔ word=name :=
  ⟨fun h => String.append_right_inj "x" |>.mp h,fun h => h ▸ rfl⟩

/-- Trying the slot that the current round names. -/
theorem trySlot_meets {x : Slot} {word : String} {rest : List String} {t : Board}
    (hst : t.stored=some (prepared firmware b.env)) (hn : t.started=none) (hs : t.selected=none)
    (he : t.env=(prepared firmware b.env).unset "raucslot")
    (hc : selection u sh (prepared firmware b.env)=
      (word::rest).findSome? (roundSlot u sh (prepared firmware b.env)))
    (hx : sh ((prepared firmware b.env).value "BOOT_SLOT") word=x.name) :
    ((trySlot u x).trace t).Meets (Progress u sh firmware b) (LoopState u sh firmware b rest)
      (Finished u sh firmware b) := by
  obtain ⟨env,stored,selected,started⟩ := t
  obtain ⟨rfl,rfl,rfl,rfl⟩ := And.intro hst (And.intro hn (And.intro hs he))
  have hleft : ((prepared firmware b.env).unset "raucslot").value x.left=
      (prepared firmware b.env).value x.left := value_unset_of_ne (by cases x <;> decide)
  have hpos : u.positive (((prepared firmware b.env).unset "raucslot").value x.left)=
      u.positive ((attempts (prepared firmware b.env)).left x) := by
    rw [hleft,left_prepared]
  refine meets_branch (fun hp => ?_) fun hp => ?_
  · have hx : selection u sh (prepared firmware b.env)=some x := by
      rw [hc,List.findSome?_cons,roundSlot,hx,bootable_eq_some.mpr ⟨rfl,hpos.symm.trans hp⟩]
    refine meets_command_seq (.begun (Or.inr (Or.inr rfl)))
      (meets_command_seq (.selected hx) (meets_command_seq (.selected hx) (meets_skip ?_)))
    refine ⟨rfl,rfl,Or.inr ⟨x,hx,rfl,?_⟩⟩
    dsimp only
    rw [hleft]
    rfl
  · refine meets_skip ⟨rfl,rfl,Or.inl ⟨rfl,rfl,?_⟩⟩
    have hno : (attempts (prepared firmware b.env)).bootable u x.name=none := by
      rw [Attempts.bootable,slotNamed_eq_some.mpr rfl,Option.filter_some,←hpos]
      dsimp only at hp ⊢
      rw [hp]
      rfl
    rw [hc,List.findSome?_cons,roundSlot,hx,hno]

/-- One round of the loop. -/
theorem considerSlot_meets {word : String} {rest : List String} {t : Board}
    (h : LoopState u sh firmware b (word::rest) t) :
    ((considerSlot u sh word).trace t).Meets (Progress u sh firmware b) (LoopState u sh firmware b rest)
      (Finished u sh firmware b) := by
  obtain ⟨hst,hn,hsel⟩ := h
  rcases hsel with ⟨hs,he,hc⟩|⟨x,hx,hs,he⟩
  · have hempty : t.env.value "raucslot"="" := by rw [he,value_unset_self]
    have hslot : t.env.value "BOOT_SLOT"=(prepared firmware b.env).value "BOOT_SLOT" := by
      rw [he,value_unset_of_ne (by decide)]
    refine meets_branch (fun _ => ?_) fun hf => absurd hempty (of_decide_eq_false hf)
    refine meets_branch (fun ha => ?_) fun ha => meets_branch (fun hb => ?_) fun hb => ?_
    · exact trySlot_meets (x:=.a) hst hn hs he hc (hslot ▸ prefixed_eq_iff.mp (of_decide_eq_true ha))
    · exact trySlot_meets (x:=.b) hst hn hs he hc (hslot ▸ prefixed_eq_iff.mp (of_decide_eq_true hb))
    · rw [hslot] at ha hb
      have hna : sh ((prepared firmware b.env).value "BOOT_SLOT") word≠"A" :=
        fun h => of_decide_eq_false ha (prefixed_eq_iff.mpr h)
      have hnb : sh ((prepared firmware b.env).value "BOOT_SLOT") word≠"B" :=
        fun h => of_decide_eq_false hb (prefixed_eq_iff.mpr h)
      have hno : roundSlot u sh (prepared firmware b.env) word=none := by
        rw [roundSlot,Attempts.bootable,slotNamed,if_neg hna,if_neg hnb]
        rfl
      exact meets_skip ⟨hst,hn,Or.inl ⟨hs,he,by rw [hc,List.findSome?_cons,hno]⟩⟩
  · have hset : t.env.value "raucslot"≠"" := by
      rw [he,value_chosen_raucslot]
      cases x <;> decide
    exact meets_branch (fun hf => absurd (of_decide_eq_true hf) hset) fun _ =>
      meets_skip ⟨hst,hn,Or.inr ⟨x,hx,hs,he⟩⟩

/-- What a default leaves behind. -/
theorem setDefault_meets {name value : String} {t : Board} {leaves : Board → Prop}
    (h : Progress u sh firmware b {t with env := t.env.setDefault name value}) :
    ((setDefault name value).trace t).Meets (Progress u sh firmware b)
      (fun s => s={t with env := t.env.setDefault name value}) leaves := by
  unfold Env.setDefault at *
  refine meets_branch (fun hd => meets_skip ?_) fun hd => meets_command ?_ ?_
  · rw [if_neg (of_decide_eq_true hd)]
  · have he : t.env.value name="" := of_not_not (of_decide_eq_false hd)
    rw [if_pos he] at h
    exact h
  · rw [if_pos (of_not_not (of_decide_eq_false hd))]

/-- A pass from power-on makes no other progress, and it ends with the kernel
of the selected slot or with a reset. -/
theorem bootCmd_meets (hs : b.selected=none) (hn : b.started=none) :
    ((bootCmd u sh firmware).trace b).Meets (Progress u sh firmware b) (fun _ => False)
      (Finished u sh firmware b) := by
  obtain ⟨env,stored,selected,started⟩ := b
  obtain ⟨rfl,rfl⟩ := And.intro hs hn
  refine meets_command_seq (.begun (Or.inl rfl)) ?_
  refine meets_seq (fun t => ∃ stored',t=⟨withBootargs firmware env,stored',none,none⟩ ∧
    (stored'=stored ∨ stored'=some (withBootargs firmware env))) ?_ ?_
  · refine meets_branch (fun _ => ?_) fun _ => ?_
    · exact meets_command (.begun (Or.inr (Or.inl rfl))) ⟨_,rfl,Or.inr rfl⟩
    · exact meets_skip ⟨_,rfl,Or.inl rfl⟩
  rintro _ ⟨stored',rfl,hst⟩
  have hbegun : ∀ env',Progress u sh firmware ⟨env,stored,none,none⟩ ⟨env',stored',none,none⟩ :=
    fun env' => .begun (hst.imp_right Or.inl)
  refine meets_seq _ (setDefault_meets (hbegun _)) fun _ h => ?_
  subst h
  refine meets_seq _ (setDefault_meets (hbegun _)) fun _ h => ?_
  subst h
  refine meets_seq _ (setDefault_meets (hbegun _)) fun _ h => ?_
  subst h
  refine meets_command_seq (.begun (Or.inr (Or.inr rfl))) ?_
  refine meets_command_seq (.begun (Or.inr (Or.inr rfl))) ?_
  refine meets_seq (LoopState u sh firmware ⟨env,stored,none,none⟩ []) ?_ fun t ht => ?_
  · refine meets_each (LoopState u sh firmware ⟨env,stored,none,none⟩) ?_
      (fun _ _ _ h => considerSlot_meets h) fun _ h => h
    refine ⟨rfl,rfl,Or.inl ⟨rfl,rfl,?_⟩⟩
    rw [selection,order_prepared]
    dsimp only
    rw [value_unset_of_ne (by decide)]
    rfl
  obtain ⟨env',stored',selected',started'⟩ := t
  obtain ⟨rfl,rfl,hsel⟩ := ht
  rcases hsel with ⟨rfl,rfl,hc⟩|⟨x,hx,rfl,rfl⟩
  · refine meets_seq (fun _ => False) ?_ fun _ h => h.elim
    refine meets_branch (fun _ => ?_) fun hf => absurd (value_unset_self _ _) (of_decide_eq_false hf)
    exact meets_command_seq (.begun (Or.inr (Or.inr rfl)))
      (meets_command_seq (.begun (Or.inr (Or.inr rfl)))
        (meets_command_seq (.refilled hc)
          (meets_seq (fun _ => False) (meets_leave (.refilled hc) (.reset hc)) fun _ h => h.elim)))
  · have hset : (chosen u (prepared firmware env) x).value "raucslot"≠"" := by
      rw [value_chosen_raucslot]
      cases x <;> decide
    refine meets_seq (fun t => t=⟨chosen u (prepared firmware env) x,some (prepared firmware env),
      some x,none⟩) ?_ fun _ h => ?_
    · exact meets_branch (fun hf => absurd (of_decide_eq_true hf) hset) fun _ => meets_skip rfl
    · subst h
      exact meets_command_seq (.spent hx) (meets_command_seq (.spent hx)
        (meets_seq (fun _ => False) (meets_leave (.started hx) (.started hx)) fun _ h => h.elim))

/-- What a cut pass leaves in storage, seen through the attempts. -/
inductive CutPass (u : Numbers) (before after : Env) (t : Board) : Prop
  /-- The attempts are unchanged and no kernel has been started. -/
  | kept (stored : attempts after=attempts before) (started : t.started=none)
    (selected : ∀ x,t.selected=some x → (attempts before).choice u=some x)
  /-- One attempt of the chosen slot is used up, and its kernel may have been started. -/
  | spent {x : Slot} (choice : (attempts before).choice u=some x) (selected : t.selected=some x)
    (stored : attempts after=(attempts before).spend u x)
  /-- There was no choice, and the attempts are given back. -/
  | refilled (choice : (attempts before).choice u=none) (selected : t.selected=none)
    (started : t.started=none) (stored : attempts after=(attempts before).refill)

variable {builtin : Env} {stored : Option Env}

/-- Progress seen through the attempts, when the loop sees its words. -/
theorem Progress.cutPass {t : Board} (h : Progress u sh firmware (powerOn builtin stored) t)
    (hsh : SeesWords sh (stored.getD builtin)) :
    CutPass u (stored.getD builtin) (t.stored.getD builtin) t := by
  have hkept : attempts (prepared firmware (stored.getD builtin))=attempts (stored.getD builtin) :=
    attempts_prepared
  cases h with
  | begun saved =>
    refine .kept ?_ rfl nofun
    rcases saved with rfl|rfl|rfl
    · rfl
    · exact attempts_withBootargs
    · exact hkept
  | selected choice =>
    rw [powerOn,selection_prepared,hsh.selection] at choice
    exact .kept hkept rfl fun _ hx => hx ▸ choice
  | spent choice | started choice =>
    rw [powerOn,selection_prepared,hsh.selection] at choice
    exact .spent choice rfl attempts_chosen
  | refilled choice =>
    rw [powerOn,selection_prepared,hsh.selection] at choice
    exact .refilled choice rfl rfl attempts_refilled

/-- A pass that loses power after any command leaves the attempts as they
were, used up for the chosen slot, or given back when there was no choice. -/
theorem cutPass_bootCmd (u : Numbers) (firmware : Option String) (commands : ℕ)
    (hsh : SeesWords sh (stored.getD builtin)) :
    CutPass u (stored.getD builtin)
      (((bootCmd u sh firmware).cut (powerOn builtin stored) commands).stored.getD builtin)
      ((bootCmd u sh firmware).cut (powerOn builtin stored) commands) := by
  rcases (bootCmd u sh firmware).cut_eq_or_mem (powerOn builtin stored) commands with h|h
  · rw [h]
    exact .kept rfl rfl nofun
  · exact ((bootCmd_meets rfl rfl).visited _ h).cutPass hsh

/-- A cut pass leaves every other variable in storage alone. -/
theorem value_bootCmd {name : String} (h : name∉passVariables) (commands : ℕ) :
    (((bootCmd u sh firmware).cut (powerOn builtin stored) commands).stored.getD builtin).value name=
      (stored.getD builtin).value name := by
  rcases (bootCmd u sh firmware).cut_eq_or_mem (powerOn builtin stored) commands with hc|hc
  · rw [hc]
    rfl
  have hp := (bootCmd_meets rfl rfl).visited _ hc
  generalize (bootCmd u sh firmware).cut (powerOn builtin stored) commands=t at hp ⊢
  cases hp with
  | begun saved =>
    rcases saved with rfl|rfl|rfl
    · rfl
    · exact value_withBootargs fun he => h (he ▸ List.mem_cons_self)
    · exact value_prepared h
  | selected choice => exact value_prepared h
  | spent choice | started choice => exact (value_chosen h).trans (value_prepared h)
  | refilled choice => exact (value_refilled h).trans (value_prepared h)

/-- The three shared variables have values. -/
def HasAttempts (e : Env) : Prop := e.value "BOOT_ORDER"≠"" ∧ ∀ x : Slot,e.value x.left≠""

theorem orDefault_ne_empty {default value : String} (h : default≠"") : orDefault default value≠"" := by
  unfold orDefault
  split
  · exact h
  · assumption

/-- Values that are there are read without their defaults. -/
theorem HasAttempts.attempts {e : Env} (h : HasAttempts e) :
    attempts e=⟨e.value "BOOT_ORDER",fun x => e.value x.left⟩ := by
  have hl : ∀ x : Slot,orDefault "3" (e.value x.left)=e.value x.left :=
    fun x => orDefault_of_ne (h.2 x)
  simp only [BootEnvironment.attempts,orDefault_of_ne h.1,hl]

/-- The prepared environment has all three values. -/
theorem hasAttempts_prepared {e : Env} : HasAttempts (prepared firmware e) := by
  constructor
  · rw [←order_prepared]
    exact orDefault_ne_empty (by decide)
  · intro x
    rw [←left_prepared]
    exact orDefault_ne_empty (by decide)

theorem HasAttempts.set {e : Env} (h : HasAttempts e) {name value : String} (hv : value≠"") :
    HasAttempts (e.set name value) := by
  have hset : ∀ m,e.value m≠"" → (e.set name value).value m≠"" := by
    intro m hm
    by_cases hn : m=name
    · rw [hn,value_set_self]
      exact hv
    · rw [value_set_of_ne hn]
      exact hm
  exact ⟨hset _ h.1,fun x => hset _ (h.2 x)⟩

theorem HasAttempts.unset_raucslot {e : Env} (h : HasAttempts e) :
    HasAttempts (e.unset "raucslot") := by
  refine ⟨?_,fun x => ?_⟩
  · rw [value_unset_of_ne (by decide)]
    exact h.1
  · rw [value_unset_of_ne (by cases x <;> decide)]
    exact h.2 x

theorem HasAttempts.set_unshared {e : Env} (h : HasAttempts e) {name value : String}
    (hn : Unshared name) : HasAttempts (e.set name value) := by
  refine ⟨?_,fun x => ?_⟩
  · rw [value_set_of_ne hn.1.symm]
    exact h.1
  · rw [value_set_of_ne (hn.left_ne x)]
    exact h.2 x

/-- Neither a selection nor the reset branch loses a value. -/
theorem hasAttempts_chosen {e : Env} {x : Slot} : HasAttempts (chosen u (prepared firmware e) x) := by
  have hspent : HasAttempts (((prepared firmware e).unset "raucslot").set x.left
      (u.minusOne ((prepared firmware e).value x.left))) :=
    hasAttempts_prepared.unset_raucslot.set (u.minusOne_ne_empty _)
  exact (hspent.set_unshared (by decide)).set_unshared (by decide)

theorem hasAttempts_refilled {e : Env} : HasAttempts (refilled (prepared firmware e)) :=
  (hasAttempts_prepared.unset_raucslot.set (by decide)).set (by decide)

/-- A cut pass never loses one of the three values. -/
theorem hasAttempts_bootCmd (commands : ℕ) (h : HasAttempts (stored.getD builtin)) :
    HasAttempts
      (((bootCmd u sh firmware).cut (powerOn builtin stored) commands).stored.getD builtin) := by
  rcases (bootCmd u sh firmware).cut_eq_or_mem (powerOn builtin stored) commands with hc|hc
  · rw [hc]
    exact h
  have hp := (bootCmd_meets rfl rfl).visited _ hc
  generalize (bootCmd u sh firmware).cut (powerOn builtin stored) commands=t at hp ⊢
  cases hp with
  | begun saved =>
    rcases saved with rfl|rfl|rfl
    · exact h
    · cases firmware with
      | none => exact h
      | some bootargs => exact h.set_unshared (by decide)
    · exact hasAttempts_prepared
  | selected choice => exact hasAttempts_prepared
  | spent choice | started choice => exact hasAttempts_chosen
  | refilled choice => exact hasAttempts_refilled

/-- A pass that is not interrupted. -/
def pass (u : Numbers) (sh : Expansion) (firmware : Option String) (builtin : Env)
    (stored : Option Env) : Board :=
  ((bootCmd u sh firmware).trace (powerOn builtin stored)).ending.state

/-- A pass with power for all its commands is not interrupted. -/
theorem cut_eq_pass {commands : ℕ}
    (h : ((bootCmd u sh firmware).trace (powerOn builtin stored)).visited.length≤commands) :
    (bootCmd u sh firmware).cut (powerOn builtin stored) commands=pass u sh firmware builtin stored :=
  Script.cut_all h

/-- The loop of a later pass sees its words when that of the first one does. -/
theorem SeesWords.pass (h : SeesWords sh (stored.getD builtin)) (u : Numbers)
    (firmware : Option String) :
    SeesWords sh ((BootScript.pass u sh firmware builtin stored).stored.getD builtin) := by
  rw [←cut_eq_pass (le_refl _)]
  exact h.congr (value_bootCmd (by decide) _)

/-- A pass that is not interrupted ends in its last command, and it is finished. -/
theorem pass_leaves (u : Numbers) (sh : Expansion) (firmware : Option String) (builtin : Env)
    (stored : Option Env) :
    ((bootCmd u sh firmware).trace (powerOn builtin stored)).ending=
        .leaves (pass u sh firmware builtin stored) ∧
      Finished u sh firmware (powerOn builtin stored) (pass u sh firmware builtin stored) := by
  have h : ((bootCmd u sh firmware).trace (powerOn builtin stored)).Meets
      (Progress u sh firmware (powerOn builtin stored)) (fun _ => False)
      (Finished u sh firmware (powerOn builtin stored)) := bootCmd_meets rfl rfl
  have hend := h.ending
  unfold pass
  cases he : ((bootCmd u sh firmware).trace (powerOn builtin stored)).ending with
  | falls t =>
    rw [he] at hend
    exact hend.elim
  | leaves t =>
    rw [he] at hend
    exact ⟨rfl,hend⟩

theorem finished_pass (u : Numbers) (sh : Expansion) (firmware : Option String) (builtin : Env)
    (stored : Option Env) :
    Finished u sh firmware (powerOn builtin stored) (pass u sh firmware builtin stored) :=
  (pass_leaves u sh firmware builtin stored).2

/-- A finished pass has selected a slot in its loop, and started its kernel. -/
theorem Finished.selection {b t : Board} (h : Finished u sh firmware b t) :
    t.selected=BootScript.selection u sh b.env ∧ t.started.isSome=t.selected.isSome := by
  cases h with
  | started choice | reset choice =>
    rw [selection_prepared] at choice
    exact ⟨choice.symm,rfl⟩

/-- A pass selects the choice when its loop sees its words. -/
theorem SeesWords.selected (h : SeesWords sh (stored.getD builtin)) (u : Numbers)
    (firmware : Option String) :
    (BootScript.pass u sh firmware builtin stored).selected=(attempts (stored.getD builtin)).choice u :=
  (finished_pass u sh firmware builtin stored).selection.1.trans h.selection

/-- A finished pass has used up an attempt of its choice, or given them back. -/
theorem Finished.attempts_stored {b t : Board} (h : Finished u sh firmware b t) (builtin : Env) :
    HasAttempts (t.stored.getD builtin) ∧ ((∃ x,t.selected=some x ∧
      attempts (t.stored.getD builtin)=(attempts b.env).spend u x) ∨
    (t.selected=none ∧ attempts (t.stored.getD builtin)=(attempts b.env).refill)) := by
  cases h with
  | started choice => exact ⟨hasAttempts_chosen,Or.inl ⟨_,rfl,attempts_chosen⟩⟩
  | reset choice => exact ⟨hasAttempts_refilled,Or.inr ⟨rfl,attempts_refilled⟩⟩

end Spec

end Greenhouse.BootScript
