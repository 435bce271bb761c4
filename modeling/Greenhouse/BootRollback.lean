import Greenhouse.BootDevice

/-!
# Bounded rollback

While a slot in front is never marked good, each of its kernel starts comes
after an attempt has been saved as used up. So the starts so far and the
attempts left never exceed the attempts it had, also when power is lost between
any two commands, until the other slot is selected.
-/

namespace Greenhouse.BootRollback

open BootNumbers SpacedWords BootEnvironment CrashScript BootScript BootDevice TemporalRuns

/-- Until the other slot is selected, the slot in front is started no more
often than it had attempts, and the order and the counter of the other slot
keep their values. -/
def Bounded (builtin e : Env) (s : Slot) (attempts : ℕ) (d : Device) : Prop :=
  s.other∉d.selections →
    d.starts.count s≤attempts ∧
      (d.env builtin).value "BOOT_ORDER"=e.value "BOOT_ORDER" ∧
      (d.env builtin).value s.other.left=e.value s.other.left

instance (builtin e : Env) (s : Slot) (attempts : ℕ) : DecidablePred (Bounded builtin e s attempts) :=
  fun d => inferInstanceAs (Decidable (s.other∉d.selections → _))

/-- The invariant: the attempts left and the starts so far add up to no more
than the attempts at the beginning. -/
structure Trying (sh : Expansion) (builtin e : Env) (s : Slot) (attempts : ℕ) (d : Device) :
    Prop where
  values : HasAttempts (d.env builtin)
  order : (d.env builtin).value "BOOT_ORDER"=e.value "BOOT_ORDER"
  other : (d.env builtin).value s.other.left=e.value s.other.left
  seesWords : SeesWords sh (d.env builtin)
  counted : ∃ c≤3,(d.env builtin).value s.left=toString c ∧ d.starts.count s+c≤attempts

variable {u : Numbers} {sh : Expansion} {builtin e : Env} {s : Slot} {attempts : ℕ} {d d' : Device}

/-- The choice between two slots in order. -/
theorem choice_pair {v : Attempts} (h : words v.order=[s.name,s.other.name]) :
    v.choice u=if u.positive (v.left s)=true then some s
      else if u.positive (v.left s.other)=true then some s.other else none := by
  rw [Attempts.choice,h]
  simp only [List.findSome?_cons,List.findSome?_nil,Attempts.bootable,slotNamed_eq_some.mpr rfl,
    Option.filter_some]
  cases u.positive (v.left s) <;> cases u.positive (v.left s.other) <;> rfl

/-- One step keeps the invariant, or a pass has selected the other slot. -/
theorem Trying.step (h : s.other∈d.selections ∨ Trying sh builtin e s attempts d) {ev : Event}
    (horder : words (e.value "BOOT_ORDER")=[s.name,s.other.name])
    (hother : uboot.positive (e.value s.other.left)=true) (hg : OnlyBoots d ev d')
    (hs : BootDevice.step uboot sh builtin d ev=some d') :
    s.other∈d'.selections ∨ Trying sh builtin e s attempts d' := by
  cases ev with
  | markGood => exact absurd rfl hg.1
  | install => exact absurd rfl hg.2.1
  | giveUp => exact absurd rfl hg.2.2
  | powerLoss =>
    cases hs
    exact h.imp_right fun ht => ⟨ht.values,ht.order,ht.other,ht.seesWords,ht.counted⟩
  | boot firmware commands =>
    rcases h with hsel|ht
    · obtain ⟨b,rfl⟩ := afterPass_of_step hs
      exact Or.inl (List.mem_append_left _ hsel)
    have hsees := seesWords_step ht.seesWords hs
    obtain ⟨_,b,hcut,hvalues,rfl⟩ := step_boot hs ht.seesWords
    obtain ⟨c,hc,hleft,hcount⟩ := ht.counted
    have hbefore := ht.values.attempts
    have hafter := (hvalues ht.values).attempts
    have hwords : words (BootEnvironment.attempts (d.env builtin)).order=[s.name,s.other.name] := by
      rw [hbefore,ht.order]
      exact horder
    have hpair := choice_pair (u:=uboot) hwords
    simp only [hbefore,hleft,ht.other,hother,if_true] at hpair
    cases hcut with
    | kept stored started selected =>
      rw [hafter,hbefore,Attempts.mk.injEq] at stored
      refine Or.inr ⟨hvalues ht.values,stored.1.trans ht.order,
        (congrFun stored.2 s.other).trans ht.other,hsees,c,hc,(congrFun stored.2 s).trans hleft,?_⟩
      simpa only [Device.afterPass,started,Option.isSome_none,Bool.false_eq_true,if_false,
        List.append_nil] using hcount
    | @spent x choice selected stored =>
      rw [hbefore,hpair] at choice
      cases c with
      | zero =>
        rw [uboot_exhausted,if_neg Bool.false_ne_true] at choice
        refine Or.inl (List.mem_append_right _ ?_)
        rw [selected,←choice]
        exact List.mem_singleton_self _
      | succ c =>
        obtain ⟨hp,hm⟩ := uboot_attempt (Nat.lt_of_succ_le hc)
        rw [hp,if_pos rfl,Option.some.injEq] at choice
        subst choice
        rw [hafter,hbefore,Attempts.spend,Attempts.mk.injEq] at stored
        dsimp only at stored
        have hs' : (b.stored.getD builtin).value s.left=toString c := by
          rw [congrFun stored.2 s,if_pos rfl,hleft,hm]
        have ho' : (b.stored.getD builtin).value s.other.left=e.value s.other.left := by
          rw [congrFun stored.2 s.other,if_neg (other_ne s),ht.other]
        refine Or.inr ⟨hvalues ht.values,stored.1.trans ht.order,ho',hsees,c,by omega,hs',?_⟩
        have hstarts : (d.afterPass b).starts.count s≤d.starts.count s+1 := by
          dsimp only [Device.afterPass]
          rw [List.count_append,selected]
          split
          · simp only [Option.toList_some,List.count_singleton_self,Nat.le_refl]
          · simp only [List.count_nil,Nat.add_zero,Nat.le_add_right]
        omega
    | refilled choice =>
      rw [hbefore,hpair] at choice
      split at choice <;> cases choice

/-- Along every run of passes and losses of power, from any order of the two
slots with up to three attempts each and attempts left for the other slot, the
rollback is bounded. -/
theorem rollback_bounded (sh : Expansion) (builtin : Env) (stored : Option Env) (s : Slot)
    (m n : ℕ) (es : List Event) (hsh : SeesWords sh (stored.getD builtin))
    (horder : words ((stored.getD builtin).value "BOOT_ORDER")=[s.name,s.other.name])
    (hs : m≤3 ∧ (stored.getD builtin).value s.left=toString m)
    (ho : n≤3 ∧ (stored.getD builtin).value s.other.left=toString n) (hn : 0<n)
    (hg : EachStep (step uboot sh builtin) OnlyBoots (Device.off stored) es) :
    EachState (step uboot sh builtin) (Bounded builtin (stored.getD builtin) s m) (Device.off stored)
      es := by
  have hother : uboot.positive ((stored.getD builtin).value s.other.left)=true := by
    obtain ⟨k,rfl⟩ := Nat.exists_eq_succ_of_ne_zero hn.ne'
    rw [ho.2]
    exact (uboot_attempt (Nat.lt_of_succ_le ho.1)).1
  have hvalues : HasAttempts (stored.getD builtin) := by
    refine ⟨ne_empty_of_mem_words (w:=s.name) (by rw [horder]; exact List.mem_cons_self),fun x => ?_⟩
    by_cases hx : x=s
    · rw [hx,hs.2]
      exact Nat.repr_ne_empty
    · rw [(eq_or_eq_other x s).resolve_left hx,ho.2]
      exact Nat.repr_ne_empty
  refine globally_of_invariant
    (I:=fun d => s.other∈d.selections ∨ Trying sh builtin (stored.getD builtin) s m d)
    (fun _ _ _ hi hg hs => Trying.step hi horder hother hg hs) (fun d _ hi _ hsel => ?_)
    (Or.inr ⟨hvalues,rfl,rfl,hsh,m,hs.1,hs.2,?_⟩) hg
  · have ht := hi.resolve_left hsel
    obtain ⟨c,_,_,hcount⟩ := ht.counted
    exact ⟨by omega,ht.order,ht.other⟩
  · simp only [Device.off,List.count_nil,Nat.zero_add,Nat.le_refl]

/-- The environment after the first boot of a fresh device. -/
def freshEnv : Env :=
  ((Env.empty.set "BOOT_ORDER" "A B").set "BOOT_A_LEFT" "3").set "BOOT_B_LEFT" "3"

/-- Four boots without a mark, one of them cut before its last saveenv. -/
def badUpdateRun : List Event :=
  [.boot none 40,.powerLoss,.boot none 5,.boot none 40,.powerLoss,.boot none 40,.powerLoss,
    .boot none 40]

/-- The rollback of a slot that is never marked good. -/
theorem rollback_bounded_badUpdateRun :
    EachState (step uboot environmentFirst freshEnv) (Bounded freshEnv freshEnv .a 3)
      (Device.off (some freshEnv)) badUpdateRun := by
  have honly : ∀ e∈badUpdateRun,e≠.markGood ∧ e≠.install ∧ e≠.giveUp := by decide
  have hsh : SeesWords environmentFirst ((some freshEnv).getD freshEnv) :=
    environmentFirst_spec.seesWords (by decide)
  exact rollback_bounded environmentFirst freshEnv (some freshEnv) .a 3 3 badUpdateRun hsh
    (by decide) (by decide) (by decide) (by decide) (EachStep.of_events (fun e he _ _ => honly e he) _)

example : (run (step uboot environmentFirst freshEnv) (Device.off (some freshEnv))
    badUpdateRun).map Device.starts=some [.a,.a,.a,.b] := by
  decide +kernel

end Greenhouse.BootRollback
