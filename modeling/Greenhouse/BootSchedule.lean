import Greenhouse.BootRenewal
import Greenhouse.BootRollback
import Greenhouse.BootSelection

/-!
# The schedule of healthy boots

The counters of the boot script are used up by healthy boots like by any other,
since boot-mark-good.sh writes variables that the boot script does not read. So
a device whose boots are all healthy follows a fixed schedule: the first slot of
the order until its attempts are used up, then the other one, and from then on
three boots of each in turn.
-/

namespace Greenhouse.BootSchedule

open BootNumbers SpacedWords BootEnvironment BootScript BootMarkGood BootRenewal BootRollback
open BootSelection TemporalRuns

/-- The counters are single digits. -/
structure Counted (v : Attempts) (counts : Slot → ℕ) : Prop where
  digit : ∀ y,counts y≤9
  left : ∀ y,v.left y=toString (counts y)

section Schedule

variable {sh : Expansion} {builtin : Env} {d d' : Device} {boot : Boot} {x : Slot} {counts : Slot → ℕ}

/-- The choice between two slots with counted attempts. -/
theorem Counted.choice {v : Attempts} (h : Counted v counts) (ho : words v.order=[x.name,x.other.name]) :
    v.choice uboot=if 0 < counts x then some x else if 0 < counts x.other then some x.other
      else none := by
  have hp : ∀ y,uboot.positive (v.left y)=decide (0 < counts y) := by
    intro y
    rw [h.left y]
    exact (uboot_digit (h.digit y)).1
  rw [choice_pair ho,hp,hp]
  simp only [decide_eq_true_eq]

/-- Spending an attempt of counted ones. -/
theorem Counted.spend {v : Attempts} (h : Counted v counts) (y : Slot) :
    Counted (v.spend uboot y) fun z => if z=y then counts y-1 else counts z where
  digit := by
    intro z
    split
    · exact (Nat.sub_le _ _).trans (h.digit y)
    · exact h.digit z
  left := by
    intro z
    dsimp only [Attempts.spend]
    split
    · rw [h.left y]
      exact (uboot_digit (h.digit y)).2
    · exact h.left z

end Schedule

end Greenhouse.BootSchedule
