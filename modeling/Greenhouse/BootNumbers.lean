import Mathlib.Data.List.Basic
import Mathlib.Logic.Function.Iterate
import Mathlib.Tactic.IntervalCases

/-!
# Numbers in boot scripts

Attempt counters are texts. The test command reads a decimal number and stops
at the first character that is no digit; the setexpr command reads and writes
hexadecimal numbers. What a script needs of the two commands is kept apart
from how U-Boot implements them.
-/

namespace Greenhouse.BootNumbers

/-- The two number commands of the boot script. -/
structure Numbers where
  /-- Whether test finds the text greater than zero. -/
  positive : String → Bool
  /-- What setexpr writes for the text minus one. -/
  minusOne : String → String
  /-- The result is a text with at least one character. -/
  minusOne_ne_empty : ∀ s,minusOne s≠""

/-- Value of the digits at the start of a text, after those already read. -/
def leadingValue (base : ℕ) (digit : Char → Option ℕ) : List Char → ℕ → ℕ
  | [],n => n
  | c::cs,n =>
    match digit c with
    | some d => leadingValue base digit cs (base*n+d)
    | none => n

/-- A decimal digit. -/
def decimalDigit (c : Char) : Option ℕ :=
  if '0' ≤ c ∧ c ≤ '9' then some (c.toNat - '0'.toNat) else none

/-- A hexadecimal digit in either case. -/
def hexDigit (c : Char) : Option ℕ :=
  if '0' ≤ c ∧ c ≤ '9' then some (c.toNat - '0'.toNat)
  else if 'a' ≤ c ∧ c ≤ 'f' then some (c.toNat - 'a'.toNat+10)
  else if 'A' ≤ c ∧ c ≤ 'F' then some (c.toNat - 'A'.toNat+10)
  else none

/-- The decimal number at the start of a text. -/
def decimalValue (s : String) : ℕ := leadingValue 10 decimalDigit s.toList 0

/-- The hexadecimal number at the start of a text. -/
def hexValue (s : String) : ℕ := leadingValue 16 hexDigit s.toList 0

/-- A number as hexadecimal text. -/
def hexNumeral (n : ℕ) : String := String.ofList (Nat.toDigits 16 n)

/-- A hexadecimal text is never empty. -/
theorem hexNumeral_ne_empty (n : ℕ) : hexNumeral n≠"" := by
  intro h
  have hl := congrArg String.toList h
  rw [hexNumeral,String.toList_ofList] at hl
  exact Nat.toDigits_ne_nil hl

/-- The number commands of U-Boot. -/
def uboot : Numbers where
  positive s := decide (0<decimalValue s)
  minusOne s := hexNumeral (hexValue s-1)
  minusOne_ne_empty s := hexNumeral_ne_empty (hexValue s-1)

section Numerals

variable {base b n d : ℕ} {digit : Char → Option ℕ}

/-- The digits of a numeral are below its base. -/
theorem exists_digit_of_mem_toDigits {c : Char} (hb : 1<b) (h : c∈Nat.toDigits b n) :
    ∃ d<b,c=d.digitChar := by
  induction n using Nat.base_induction b hb with
  | single m hm =>
    rw [Nat.toDigits_of_lt_base hm] at h
    exact ⟨m,hm,List.mem_singleton.mp h⟩
  | digit m k hk hm ih =>
    rw [←Nat.toDigits_append_toDigits hb hm hk,Nat.toDigits_of_lt_base hk] at h
    rcases List.mem_append.mp h with h|h
    · exact ih h
    · exact ⟨k,hk,List.mem_singleton.mp h⟩

/-- Digits are read from the left to the right. -/
theorem leadingValue_append {cs t : List Char} (h : ∀ c∈cs,(digit c).isSome=true) :
    leadingValue base digit (cs++t) n=leadingValue base digit t (leadingValue base digit cs n) := by
  induction cs generalizing n with
  | nil => rfl
  | cons c cs ih =>
    obtain ⟨hc,hcs⟩ := List.forall_mem_cons.mp h
    obtain ⟨d,hd⟩ := Option.isSome_iff_exists.mp hc
    simp only [List.cons_append,leadingValue,hd]
    exact ih hcs

/-- Reading goes on from what has been read. -/
theorem le_leadingValue (hb : 0<base) (cs : List Char) : n≤leadingValue base digit cs n := by
  induction cs generalizing n with
  | nil => exact le_refl n
  | cons c cs ih =>
    rw [leadingValue]
    cases digit c with
    | none => exact le_refl n
    | some d => exact (Nat.le_mul_of_pos_left n hb).trans ((Nat.le_add_right _ d).trans ih)

/-- A numeral of one digit is read as that digit in every base. -/
theorem leadingValue_toDigits_of_lt (hdigit : ∀ d<b,digit d.digitChar=some d) (h : n<b) :
    leadingValue base digit (Nat.toDigits b n) 0=n := by
  rw [Nat.toDigits_of_lt_base h]
  simp only [leadingValue,hdigit n h,Nat.mul_zero,Nat.zero_add]

/-- A numeral with one digit more, read in another base. -/
theorem leadingValue_toDigits_add (hb : 1<b) (hdigit : ∀ d<b,digit d.digitChar=some d) (hn : 0<n)
    (hd : d<b) : leadingValue base digit (Nat.toDigits b (b*n+d)) 0=
      base*leadingValue base digit (Nat.toDigits b n) 0+d := by
  have hall : ∀ c∈Nat.toDigits b n,(digit c).isSome=true := by
    intro c hc
    obtain ⟨k,hk,rfl⟩ := exists_digit_of_mem_toDigits hb hc
    rw [hdigit k hk,Option.isSome_some]
  rw [←Nat.toDigits_append_toDigits hb hn hd,leadingValue_append hall,Nat.toDigits_of_lt_base hd]
  simp only [leadingValue,hdigit d hd]

/-- A numeral is read back in its own base. -/
theorem leadingValue_toDigits (hb : 1<b) (hdigit : ∀ d<b,digit d.digitChar=some d) (n : ℕ) :
    leadingValue b digit (Nat.toDigits b n) 0=n := by
  induction n using Nat.base_induction b hb with
  | single m hm => exact leadingValue_toDigits_of_lt hdigit hm
  | digit m k hk hm ih => rw [leadingValue_toDigits_add hb hdigit hm hk,ih]

/-- The first digit of a numeral. -/
theorem head?_toDigits {j : ℕ} (hb : 1<b) (hd : 0<d) (hdb : d<b) (hle : d*b^j≤n)
    (hlt : n<(d+1)*b^j) : (Nat.toDigits b n).head?=some d.digitChar := by
  induction j generalizing n with
  | zero =>
    rw [pow_zero,Nat.mul_one] at hle hlt
    obtain rfl : n=d := by omega
    rw [Nat.toDigits_of_lt_base hdb,List.head?_cons]
  | succ j ih =>
    have hpos : 0<b := by omega
    rw [pow_succ,←Nat.mul_assoc] at hle hlt
    have hfirst : d*b^j≤n/b := (Nat.le_div_iff_mul_le hpos).mpr hle
    have hbase : b≤n := by
      have hone : 1≤n/b := le_trans (Nat.mul_pos hd (Nat.pow_pos hpos)) hfirst
      exact (Nat.one_le_div_iff hpos).mp hone
    rw [Nat.toDigits_of_base_le hb hbase,List.head?_append,
      ih hfirst ((Nat.div_lt_iff_lt_mul hpos).mpr hlt),Option.some_or]

end Numerals

theorem decimalDigit_digitChar {d : ℕ} (h : d<10) : decimalDigit d.digitChar=some d := by
  interval_cases d <;> decide

theorem hexDigit_digitChar {d : ℕ} (h : d<16) : hexDigit d.digitChar=some d := by
  interval_cases d <;> decide

/-- The letters among the hexadecimal digits are no decimal digits. -/
theorem decimalDigit_letter {d : ℕ} (hd : 10≤d) (h : d<16) : decimalDigit d.digitChar=none := by
  interval_cases d <;> decide

/-- A decimal numeral is compared as its number. -/
theorem decimalValue_toString (n : ℕ) : decimalValue (toString n)=n := by
  rw [decimalValue,Nat.toString_eq_repr,Nat.toList_repr]
  exact leadingValue_toDigits (by decide) (fun _ => decimalDigit_digitChar) n

/-- A number written by setexpr is read back by setexpr. -/
theorem hexValue_hexNumeral (n : ℕ) : hexValue (hexNumeral n)=n := by
  rw [hexValue,hexNumeral,String.toList_ofList]
  exact leadingValue_toDigits (by decide) (fun _ => hexDigit_digitChar) n

/-- A hexadecimal numeral counts as positive when its first digit is a decimal
digit other than zero. -/
theorem positive_hexNumeral {n d j : ℕ} (hd : 0<d) (hdb : d<16) (hle : d*16^j≤n)
    (hlt : n<(d+1)*16^j) : uboot.positive (hexNumeral n)=decide (d<10) := by
  have hhead := head?_toDigits (by decide) hd hdb hle hlt
  obtain ⟨rest,hrest⟩ := List.head?_eq_some_iff.mp hhead
  have hvalue : decimalValue (hexNumeral n)=
      leadingValue 10 decimalDigit (d.digitChar::rest) 0 := by
    rw [decimalValue,hexNumeral,String.toList_ofList,hrest]
  have hpositive : uboot.positive (hexNumeral n)=
      decide (0<leadingValue 10 decimalDigit (d.digitChar::rest) 0) := by
    rw [←hvalue]
    rfl
  rw [hpositive,decide_eq_decide,leadingValue]
  by_cases h : d<10
  · simp only [decimalDigit_digitChar h,Nat.mul_zero,Nat.zero_add,h,iff_true]
    exact hd.trans_le (le_leadingValue (by decide) rest)
  · simp only [decimalDigit_letter (Nat.le_of_not_lt h) hdb,h,Nat.lt_irrefl]

/-- A decimal numeral, read by setexpr. -/
theorem hexValue_toString_of_lt {n : ℕ} (h : n<10) : hexValue (toString n)=n := by
  rw [hexValue,Nat.toString_eq_repr,Nat.toList_repr]
  exact leadingValue_toDigits_of_lt (fun d hd => hexDigit_digitChar (by omega)) h

theorem hexValue_toString_add {n d : ℕ} (hn : 0<n) (hd : d<10) :
    hexValue (toString (10*n+d))=16*hexValue (toString n)+d := by
  simp only [hexValue,Nat.toString_eq_repr,Nat.toList_repr]
  exact leadingValue_toDigits_add (by decide) (fun d hd => hexDigit_digitChar (by omega)) hn hd

/-- The first digit of a decimal numeral is at most nine, also when setexpr
reads it. -/
theorem hexValue_toString_bounds {n : ℕ} (hn : 0<n) : ∃ j,16^j≤hexValue (toString n) ∧
    hexValue (toString n)<10*16^j ∧ (10≤n → 0<j) := by
  induction n using Nat.base_induction 10 (by decide) with
  | single m hm =>
    rw [hexValue_toString_of_lt hm]
    exact ⟨0,hn,by omega,fun h => absurd hm (Nat.not_lt.mpr h)⟩
  | digit m k hk hm ih =>
    obtain ⟨j,hle,hlt,_⟩ := ih hm
    rw [hexValue_toString_add hm hk]
    refine ⟨j+1,?_,?_,fun _ => j.succ_pos⟩
    · rw [pow_succ]
      omega
    · rw [pow_succ]
      omega

/-- Reading a decimal numeral as hexadecimal keeps it even or odd. -/
theorem hexValue_toString_mod_two (n : ℕ) : hexValue (toString n)%2=n%2 := by
  induction n using Nat.base_induction 10 (by decide) with
  | single m hm => rw [hexValue_toString_of_lt hm]
  | digit m k hk hm _ =>
    rw [hexValue_toString_add hm hk]
    omega

/-- Repeated subtraction counts down in hexadecimal. -/
theorem minusOne_iterate (s : String) (k : ℕ) :
    uboot.minusOne^[k+1] s=hexNumeral (hexValue s-(k+1)) := by
  induction k with
  | zero => rfl
  | succ k ih =>
    have hminus : uboot.minusOne (hexNumeral (hexValue s-(k+1)))=
        hexNumeral (hexValue (hexNumeral (hexValue s-(k+1)))-1) := rfl
    rw [Function.iterate_succ_apply',ih,hminus,hexValue_hexNumeral,Nat.sub_sub]

/-- Only the number three is written as the text 3. -/
theorem hexNumeral_eq_three {n : ℕ} : hexNumeral n="3" ↔ n=3 := by
  constructor
  · intro h
    have hl : Nat.toDigits 16 n=['3'] := by
      have ht := congrArg String.toList h
      rwa [hexNumeral,String.toList_ofList] at ht
    by_cases hn : n<16
    · interval_cases n <;> first | rfl | exact absurd hl (by decide)
    · have hlen := congrArg List.length hl
      have hle := (Nat.length_toDigits_le_iff (n:=n) (k:=1) (b:=16) (by decide) (by decide)).mp hlen.le
      omega
  · rintro rfl
    decide

/-- Decimal digits are compared and counted down exactly. -/
theorem uboot_digit {n : ℕ} (h : n≤9) : uboot.positive (toString n)=decide (0<n) ∧
    uboot.minusOne (toString n)=toString (n-1) := by
  interval_cases n <;> decide

/-- The counters that occur while a slot has its three attempts are counted
exactly. -/
theorem uboot_attempt {n : ℕ} (h : n<3) : uboot.positive (toString (n+1))=true ∧
    uboot.minusOne (toString (n+1))=toString n := by
  have hn : n+1≤9 := by omega
  obtain ⟨hpositive,hminus⟩ := uboot_digit hn
  exact ⟨hpositive.trans (decide_eq_true n.succ_pos),hminus⟩

/-- The text 0 is not positive. -/
theorem uboot_exhausted : uboot.positive (toString 0)=false := (uboot_digit (Nat.zero_le 9)).1

end Greenhouse.BootNumbers
