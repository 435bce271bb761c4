import Greenhouse.BootRecovery
import Mathlib.Data.Nat.Log

/-!
# Counting attempts

The update system writes a counter in decimal, the boot script subtracts in
hexadecimal and compares in decimal. A counter of one digit is counted exactly.
A longer one is read as a larger number, and it is used up as soon as the
subtraction borrows from its first digit, which then begins with a letter. The
number of starts is never the number that has been written.
-/

namespace Greenhouse.BootCounting

open BootNumbers SpacedWords BootEnvironment CrashScript BootScript BootRecovery

/-- The slot is the first one in BOOT_ORDER, and its counter holds the decimal
numeral of a number. -/
structure FirstSlot (e : Env) (s : Slot) (n : ℕ) : Prop where
  first : (words (orDefault "A B" (e.value "BOOT_ORDER"))).findSome? slotNamed=some s
  counter : e.value s.left=toString n

/-- A pass from power-on starts the kernel of the slot. -/
def StartsSlot (u : Numbers) (sh : Expansion) (builtin : Env) (stored : Option Env) (s : Slot)
    (firmware : Option String) : Prop :=
  ∃ b,((bootCmd u sh firmware).trace (powerOn builtin stored)).ending=.leaves b ∧
    b.selected=some s ∧ b.started.isSome=true

/-- No pass ends in the reset branch, which fills the counters. -/
def NoReset (u : Numbers) (sh : Expansion) (builtin : Env) : Option Env → List (Option String) → Prop
  | _,[] => True
  | stored,firmware::firmwares => ¬Resets u sh builtin stored firmware ∧
      NoReset u sh builtin (pass u sh firmware builtin stored).stored firmwares

/-- Of successive passes the first n start the slot, and the later ones skip it
until the counters are filled. -/
def CountsExactly (sh : Expansion) (builtin : Env) (stored : Option Env) (s : Slot) (n : ℕ) : Prop :=
  ∀ firmwares firmware,NoReset uboot sh builtin stored firmwares →
    (StartsSlot uboot sh builtin (storageAfter uboot sh builtin stored firmwares) s firmware ↔
      firmwares.length<n)

/-- How often a counter that holds the decimal numeral of a number is positive
before it is used up. -/
def kernelStarts (n : ℕ) : ℕ :=
  if n≤9 then n else hexValue (toString n)-16^Nat.log 16 (hexValue (toString n))+1

/-- A counter is positive for this many passes and then used up. -/
structure Lasts (u : Numbers) (counter : String) (m : ℕ) : Prop where
  positive : ∀ i < m,u.positive (u.minusOne^[i] counter)=true
  exhausted : u.positive (u.minusOne^[m] counter)=false

section Passes

variable {u : Numbers} {sh : Expansion} {builtin : Env} {stored : Option Env} {s : Slot} {counter : String} {m : ℕ}

/-- The numeral is read without a default. -/
theorem FirstSlot.left {e : Env} {n : ℕ} (h : FirstSlot e s n) :
    (attempts e).left s=toString n := by
  have hne : toString n≠"" := Nat.repr_ne_empty
  dsimp only [attempts]
  rw [h.counter,orDefault_of_ne hne]

/-- The first slot of the order is chosen exactly while its counter is positive. -/
theorem choice_first_iff {v : Attempts} (h : (words v.order).findSome? slotNamed=some s) :
    v.choice u=some s ↔ u.positive (v.left s)=true := by
  refine ⟨fun hc => (choice_eq_some hc).2,fun hp => ?_⟩
  rw [Attempts.choice]
  generalize words v.order=ws at h ⊢
  induction ws with
  | nil => cases h
  | cons word ws ih =>
    rw [List.findSome?_cons] at h ⊢
    cases hw : slotNamed word with
    | none =>
      rw [hw] at h
      rw [Attempts.bootable,hw]
      exact ih h
    | some x =>
      rw [hw] at h
      obtain rfl : x=s := Option.some.inj h
      rw [bootable_eq_some.mpr ⟨slotNamed_eq_some.mp hw,hp⟩]

/-- A pass starts the chosen slot. -/
theorem startsSlot_iff (hsh : SeesWords sh (stored.getD builtin)) {firmware : Option String} :
    StartsSlot u sh builtin stored s firmware ↔ (attempts (stored.getD builtin)).choice u=some s := by
  refine (exists_leaves_iff hsh fun slot kernel => slot=some s ∧ kernel=true).trans ?_
  exact and_iff_left_of_imp fun h => by rw [h]; rfl

/-- A pass that chooses a slot uses up one of its attempts. -/
theorem attempts_after_choice (hsh : SeesWords sh (stored.getD builtin))
    (firmware : Option String) {x : Slot} (h : (attempts (stored.getD builtin)).choice u=some x) :
    attempts ((pass u sh firmware builtin stored).stored.getD builtin)=
      (attempts (stored.getD builtin)).spend u x := by
  have hfinished := finished_pass u sh firmware builtin stored
  have hselected : (pass u sh firmware builtin stored).selected=some x :=
    (hsh.selected u firmware).trans h
  obtain ⟨_,⟨y,hy,hspend⟩|⟨hnone,_⟩⟩ := hfinished.attempts_stored builtin
  · rw [hselected] at hy
    cases hy
    exact hspend
  · rw [hselected] at hnone
    cases hnone

/-- A counter that is not used up lasts one pass less afterwards. -/
theorem Lasts.minusOne (h : Lasts u counter (m+1)) : Lasts u (u.minusOne counter) m where
  positive := fun i hi => h.positive (i+1) (Nat.succ_lt_succ hi)
  exhausted := h.exhausted

/-- The passes start the first slot as often as its counter lasts, and not
again before a reset. -/
theorem Lasts.startsSlot_iff {firmwares : List (Option String)} {firmware : Option String}
    (h : Lasts u counter m) (hsh : SeesWords sh (stored.getD builtin))
    (hfirst : (words (attempts (stored.getD builtin)).order).findSome? slotNamed=some s)
    (hleft : (attempts (stored.getD builtin)).left s=counter)
    (hno : NoReset u sh builtin stored firmwares) :
    StartsSlot u sh builtin (storageAfter u sh builtin stored firmwares) s firmware ↔
      firmwares.length < m := by
  induction firmwares generalizing stored counter m with
  | nil =>
    rw [storageAfter,BootCounting.startsSlot_iff hsh,choice_first_iff hfirst,hleft]
    cases m with
    | zero => exact iff_of_false (ne_true_of_eq_false h.exhausted) (Nat.lt_irrefl 0)
    | succ m => exact iff_of_true (h.positive 0 m.succ_pos) m.succ_pos
  | cons f firmwares ih =>
    obtain ⟨hreset,hrest⟩ := hno
    have hfirst' : (words (attempts ((pass u sh f builtin stored).stored.getD builtin)).order).findSome?
        slotNamed=some s := by rw [order_pass]; exact hfirst
    obtain ⟨x,hx⟩ := Option.ne_none_iff_exists'.mp fun hnone => hreset ((resets_iff hsh).mpr hnone)
    have hafter := attempts_after_choice hsh f hx
    have hsh' := hsh.pass u f
    cases m with
    | zero =>
      have hne : s≠x := by
        rintro rfl
        have hp := (choice_first_iff hfirst).mp hx
        rw [hleft] at hp
        exact absurd hp (ne_true_of_eq_false h.exhausted)
      have hleft' : (attempts ((pass u sh f builtin stored).stored.getD builtin)).left s=counter := by
        rw [hafter,Attempts.spend]
        exact (if_neg hne).trans hleft
      exact (ih h hsh' hfirst' hleft' hrest).trans (iff_of_false (Nat.not_lt_zero _) (Nat.not_lt_zero _))
    | succ m =>
      have hs : (attempts (stored.getD builtin)).choice u=some s :=
        (choice_first_iff hfirst).mpr (by rw [hleft]; exact h.positive 0 m.succ_pos)
      obtain rfl : s=x := Option.some.inj (hs.symm.trans hx)
      have hleft' : (attempts ((pass u sh f builtin stored).stored.getD builtin)).left s=
          u.minusOne counter := by
        rw [hafter,Attempts.spend]
        exact (if_pos rfl).trans (congrArg u.minusOne hleft)
      exact (ih h.minusOne hsh' hfirst' hleft' hrest).trans Nat.succ_lt_succ_iff.symm

/-- No pass resets while the counter lasts. -/
theorem Lasts.noReset {k : ℕ} (h : Lasts u counter m) (hsh : SeesWords sh (stored.getD builtin))
    (hfirst : (words (attempts (stored.getD builtin)).order).findSome? slotNamed=some s)
    (hleft : (attempts (stored.getD builtin)).left s=counter) (hk : k ≤ m) :
    NoReset u sh builtin stored (List.replicate k none) := by
  induction k generalizing stored counter m with
  | zero => trivial
  | succ k ih =>
    obtain ⟨m,rfl⟩ := Nat.exists_eq_succ_of_ne_zero (Nat.ne_zero_of_lt hk)
    have hs : (attempts (stored.getD builtin)).choice u=some s :=
      (choice_first_iff hfirst).mpr (by rw [hleft]; exact h.positive 0 m.succ_pos)
    have hafter := attempts_after_choice hsh none hs
    refine ⟨fun hreset => ?_,ih h.minusOne (hsh.pass u none) ?_ ?_ (Nat.le_of_succ_le_succ hk)⟩
    · rw [resets_iff hsh,hs] at hreset
      cases hreset
    · rw [order_pass]
      exact hfirst
    · rw [hafter,Attempts.spend]
      exact (if_pos rfl).trans (congrArg u.minusOne hleft)

end Passes

/-- A counter of one digit lasts for its number. -/
theorem lasts_digit {n : ℕ} (h : n≤9) : Lasts uboot (toString n) n := by
  have hminus : ∀ i≤n,uboot.minusOne^[i] (toString n)=toString (n-i) := by
    intro i hi
    induction i with
    | zero => rfl
    | succ i ih =>
      have hle : n-i≤9 := (Nat.sub_le n i).trans h
      rw [Function.iterate_succ_apply',ih (Nat.le_of_succ_le hi),(uboot_digit hle).2,Nat.sub_sub]
  constructor
  · intro i hi
    rw [hminus i hi.le,(uboot_digit ((Nat.sub_le n i).trans h)).1]
    exact decide_eq_true (Nat.sub_pos_of_lt hi)
  · rw [hminus n (le_refl n),Nat.sub_self]
    exact uboot_exhausted

/-- A longer counter lasts until the subtraction borrows from its first digit. -/
theorem lasts_numeral {n j : ℕ} (hn : 0<n) (hle : 16^j≤hexValue (toString n))
    (hlt : hexValue (toString n)<10*16^j) (hj : 0<j) :
    Lasts uboot (toString n) (hexValue (toString n)-16^j+1) := by
  constructor
  · intro i hi
    cases i with
    | zero =>
      have hp : uboot.positive (toString n)=decide (0<decimalValue (toString n)) := rfl
      rw [Function.iterate_zero_apply,hp,decimalValue_toString]
      exact decide_eq_true hn
    | succ i =>
      have hpow : 0<16^j := Nat.pow_pos (by decide)
      have hlow : 16^j≤hexValue (toString n)-(i+1) := by omega
      have hhigh : hexValue (toString n)-(i+1)<10*16^j := by omega
      have hd : (hexValue (toString n)-(i+1))/16^j<10 := (Nat.div_lt_iff_lt_mul hpow).mpr hhigh
      have hnext := Nat.lt_mul_div_succ (hexValue (toString n)-(i+1)) hpow
      rw [Nat.mul_comm] at hnext
      rw [minusOne_iterate,positive_hexNumeral (Nat.div_pos hlow hpow) (by omega)
        (Nat.div_mul_le_self _ _) hnext]
      exact decide_eq_true hd
  · obtain ⟨j,rfl⟩ := Nat.exists_eq_succ_of_ne_zero hj.ne'
    have hpow : 0<16^j := Nat.pow_pos (by decide)
    have hvalue : hexValue (toString n)-(hexValue (toString n)-16^(j+1)+1)=16^(j+1)-1 := by omega
    rw [minusOne_iterate,hvalue,positive_hexNumeral (d:=15) (j:=j) (by decide) (by decide)]
    · rfl
    · rw [pow_succ]
      omega
    · rw [pow_succ]
      omega

/-- A counter written in decimal lasts for this many passes. -/
theorem lasts_kernelStarts (n : ℕ) : Lasts uboot (toString n) (kernelStarts n) := by
  unfold kernelStarts
  split
  · exact lasts_digit ‹n≤9›
  · have hn : 10≤n := by omega
    obtain ⟨j,hle,hlt,hj⟩ := hexValue_toString_bounds (n:=n) (by omega)
    have hlog : Nat.log 16 (hexValue (toString n))=j := by
      refine Nat.log_eq_of_pow_le_of_lt_pow hle ?_
      rw [pow_succ]
      omega
    rw [hlog]
    exact lasts_numeral (by omega) hle hlt (hj hn)

/-- Only the counters of one digit last for the number that has been written:
the others differ from it by an odd number. -/
theorem kernelStarts_eq_iff {n : ℕ} : kernelStarts n=n ↔ n≤9 := by
  unfold kernelStarts
  split
  · exact iff_of_true rfl ‹n≤9›
  · have hn : 10≤n := by omega
    refine iff_of_false (fun he => ?_) ‹¬n≤9›
    obtain ⟨j,hle,hlt,hj⟩ := hexValue_toString_bounds (n:=n) (by omega)
    obtain ⟨i,hi⟩ := Nat.exists_eq_succ_of_ne_zero (hj hn).ne'
    have hlog : Nat.log 16 (hexValue (toString n))=j := by
      refine Nat.log_eq_of_pow_le_of_lt_pow hle ?_
      rw [pow_succ]
      omega
    have hmod := hexValue_toString_mod_two n
    rw [hlog] at he
    rw [hi,pow_succ] at hle he
    omega

/-- Successive passes start the first slot of the order as often as its counter
lasts, whatever the other slot and the rest of the environment hold. -/
theorem startsSlot_iff_lt_kernelStarts {sh : Expansion} {builtin : Env} {stored : Option Env}
    {s : Slot} {n : ℕ} (hsh : SeesWords sh (stored.getD builtin))
    (h : FirstSlot (stored.getD builtin) s n) {firmwares : List (Option String)}
    {firmware : Option String} (hno : NoReset uboot sh builtin stored firmwares) :
    StartsSlot uboot sh builtin (storageAfter uboot sh builtin stored firmwares) s firmware ↔
      firmwares.length<kernelStarts n :=
  (lasts_kernelStarts n).startsSlot_iff hsh h.first h.left hno

/-- From every environment, the passes start the first slot of the order as
often as the number says exactly when the number has one digit. -/
theorem countsExactly_iff (sh : Expansion) (builtin : Env) (stored : Option Env) (s : Slot) (n : ℕ)
    (hsh : SeesWords sh (stored.getD builtin)) (h : FirstSlot (stored.getD builtin) s n) :
    CountsExactly sh builtin stored s n ↔ n≤9 := by
  rw [←kernelStarts_eq_iff]
  constructor
  · intro hcounts
    have hno : NoReset uboot sh builtin stored (List.replicate (min n (kernelStarts n)) none) :=
      (lasts_kernelStarts n).noReset hsh h.first h.left (Nat.min_le_right _ _)
    have hstarts := (hcounts _ none hno).symm.trans (startsSlot_iff_lt_kernelStarts hsh h hno)
    rw [List.length_replicate] at hstarts
    omega
  · intro hn firmwares firmware hno
    rw [startsSlot_iff_lt_kernelStarts hsh h hno,hn]

/-- Slot A is in front and has a number of attempts. -/
def frontAttempts (n : ℕ) : Env :=
  ((Env.empty.set "BOOT_A_LEFT" (toString n)).set "BOOT_ORDER" "A B").set "BOOT_B_LEFT" "3"

theorem firstSlot_frontAttempts (n : ℕ) :
    FirstSlot ((some (frontAttempts n)).getD Env.empty) .a n where
  first := by
    rw [Option.getD_some,frontAttempts,value_set_of_ne (by decide),value_set_self]
    decide
  counter := by
    rw [Option.getD_some,frontAttempts,value_set_of_ne (by decide),value_set_of_ne (by decide)]
    exact value_set_self _ _ _

/-- The environment has no other variable. -/
theorem seesWords_frontAttempts (n : ℕ) :
    SeesWords environmentFirst ((some (frontAttempts n)).getD Env.empty) := by
  refine environmentFirst_spec.seesWords ?_
  rw [Option.getD_some,frontAttempts,value_set_of_ne (by decide),value_set_of_ne (by decide),
    value_set_of_ne (by decide)]
  rfl

/-- Nine attempts are counted. -/
theorem countsExactly_iff_nine :
    CountsExactly environmentFirst Env.empty (some (frontAttempts 9)) .a 9 :=
  (countsExactly_iff environmentFirst Env.empty (some (frontAttempts 9)) .a 9
    (seesWords_frontAttempts 9) (firstSlot_frontAttempts 9)).mpr
    (by decide)

/-- Of ten attempts only one is used: the second pass skips the slot. -/
theorem ten_not_counted :
    FirstSlot ((some (frontAttempts 10)).getD Env.empty) .a 10 ∧
      ¬CountsExactly environmentFirst Env.empty (some (frontAttempts 10)) .a 10 := by
  have hsh := seesWords_frontAttempts 10
  have hfirst := firstSlot_frontAttempts 10
  have hlasts : kernelStarts 10=1 := by decide +kernel
  refine ⟨hfirst,fun hcounts => ?_⟩
  have hno : NoReset uboot environmentFirst Env.empty (some (frontAttempts 10)) [none] :=
    (lasts_kernelStarts 10).noReset (k:=1) hsh hfirst.first hfirst.left (by rw [hlasts])
  have hstarts := (hcounts [none] none hno).mpr (by decide)
  rw [startsSlot_iff_lt_kernelStarts hsh hfirst hno,hlasts] at hstarts
  exact absurd hstarts (by decide)

end Greenhouse.BootCounting
