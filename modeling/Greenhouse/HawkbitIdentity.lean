import Greenhouse.ShellText

/-!
# The hawkBit target name

rauc-hawkbit-identity.sh names the device after its serial number, which it
takes from the device tree as it is and from /proc/cpuinfo up to the first
blank and without leading zeros. Without a usable serial it falls back on the
digits of the Ethernet MAC address under the same prefix. Names of different
devices can therefore coincide, and one device can change its name.
-/

namespace Greenhouse.HawkbitIdentity

open ShellText

/-- The files the script reads, none for one that does not exist. -/
structure Sources where
  /-- /sys/firmware/devicetree/base/serial-number -/
  serialNumber : Option Text
  /-- /proc/cpuinfo -/
  cpuinfo : Text
  /-- /sys/class/net/eth0/address -/
  eth0 : Option Text
  /-- /sys/class/net/end0/address -/
  end0 : Option Text

/-- The end of a device tree string. -/
def nul : Char := Char.ofNat 0

/-- sed 's/^0*//' on one line. -/
def stripZeros (l : Text) : Text := l.dropWhile fun c => decide (c= '0')

/-- SERIAL. -/
def serial (f : Sources) : Text :=
  match f.serialNumber with
  | some content => substitution (delete nul content)
  | none => substitution (mapLines stripZeros (mapLines (field 3)
      (keepLines (beginsIgnoringCase "serial".toList) f.cpuinfo)))

/-- MAC. -/
def mac (f : Sources) : Text :=
  match f.eth0 with
  | some address => substitution address
  | none =>
    match f.end0 with
    | some address => substitution address
    | none => "unknown".toList

/-- The serial number can name the device. -/
def usable (s : Text) : Bool := decide (s≠[]) && decide (s≠"unknown".toList)

/-- What every target name begins with. -/
def namePrefix : Text := "rpi4-".toList

/-- TARGET_NAME. -/
def targetName (shell : Text → Text) (serial mac : Text) : Text :=
  if usable serial=true then namePrefix++serial
  else namePrefix++substitution (delete ':' (echo shell mac))

/-- The name the script derives from the files. -/
def derivedName (shell : Text → Text) (f : Sources) : Text := targetName shell (serial f) (mac f)

/-- A byte in two lower-case hexadecimal digits. -/
def hexByte (b : UInt8) : Text := [Nat.digitChar (b.toNat/16),Nat.digitChar (b.toNat%16)]

/-- An Ethernet address. -/
structure MacAddress where
  bytes : List UInt8
  length_eq : bytes.length=6
  deriving DecidableEq

/-- Bytes as an address file shows them, separated by colons. -/
def addressText : List UInt8 → Text
  | [] => []
  | [b] => hexByte b
  | b::c::bytes => hexByte b++ ':'::addressText (c::bytes)

/-- The digits of an address. -/
def MacAddress.digits (m : MacAddress) : Text := m.bytes.flatMap hexByte

/-- A device, with the serial number that its firmware reports. -/
structure Device where
  serial : Text
  mac : MacAddress
  /-- The serial number is a string of the device tree. -/
  noNul : nul∉serial
  /-- The serial number stands on one line of /proc/cpuinfo. -/
  oneLine : '\n'∉serial

/-- Where the serial number is read. -/
inductive SerialSource
  | deviceTree
  | cpuinfo
  deriving DecidableEq

/-- The Ethernet device that is present. -/
inductive Ethernet
  | eth0
  | end0
  | absent
  deriving DecidableEq

/-- The sources that are available to one run. -/
structure Run where
  source : SerialSource
  ethernet : Ethernet

/-- The files show the serial number of the device. -/
def ShowsSerial (d : Device) (f : Sources) : SerialSource → Prop
  | .deviceTree => f.serialNumber=some (d.serial++[nul])
  | .cpuinfo => f.serialNumber=none ∧ ∃ before after,
      lines f.cpuinfo=before++("Serial\t\t: ".toList++d.serial)::after ∧
        ∀ l∈before++after,beginsIgnoringCase "serial".toList l=false

/-- The files show the Ethernet address of the device. -/
def ShowsMac (d : Device) (f : Sources) : Ethernet → Prop
  | .eth0 => f.eth0=some (addressText d.mac.bytes++['\n'])
  | .end0 => f.eth0=none ∧ f.end0=some (addressText d.mac.bytes++['\n'])
  | .absent => f.eth0=none ∧ f.end0=none

/-- The files of a run on a device. -/
structure Shows (d : Device) (r : Run) (f : Sources) : Prop where
  serial : ShowsSerial d f r.source
  mac : ShowsMac d f r.ethernet

/-- A serial number as a source gives it to the script. -/
def shown (s : Text) : SerialSource → Text
  | .deviceTree => s
  | .cpuinfo => stripZeros ((fields s).getD 0 [])

/-- What stands behind the prefix of the name. -/
def identity (d : Device) (r : Run) : Text :=
  if usable (shown d.serial r.source)=true then shown d.serial r.source
  else if r.ethernet=.absent then "unknown".toList
  else d.mac.digits

section Addresses

/-- The sixteen digits are different from each other. -/
theorem digitChar_inj {m n : ℕ} (hm : m<16) (hn : n<16) (h : Nat.digitChar m=Nat.digitChar n) :
    m=n := by
  have hall : ∀ m<16,∀ n<16,Nat.digitChar m=Nat.digitChar n → m=n := by decide
  exact hall m hm n hn h

/-- A character of a byte is one of the sixteen digits. -/
theorem mem_hexByte {b : UInt8} {c : Char} (h : c∈hexByte b) : ∃ n<16,c=Nat.digitChar n := by
  have hb := b.toNat_lt
  rcases List.mem_cons.mp h with rfl|h
  · exact ⟨_,by omega,rfl⟩
  · exact ⟨_,by omega,List.mem_singleton.mp h⟩

/-- The sixteen digits. -/
theorem digitChar_mem {n : ℕ} (h : n<16) : Nat.digitChar n∈"0123456789abcdef".toList := by
  have hall : ∀ n<16,Nat.digitChar n∈"0123456789abcdef".toList := by decide
  exact hall n h

/-- A byte can be read back. -/
theorem hexByte_injective : Function.Injective hexByte := by
  intro b c h
  have hb := b.toNat_lt
  have hc := c.toNat_lt
  obtain ⟨hhigh,hlow⟩ := List.cons.inj h
  have h₁ := digitChar_inj (by omega) (by omega) hhigh
  have h₂ := digitChar_inj (by omega) (by omega) (List.cons.inj hlow).1
  exact UInt8.toNat_inj.mp (by omega)

/-- Bytes can be read back from their digits. -/
theorem flatMap_hexByte_injective : Function.Injective fun bytes : List UInt8 =>
    bytes.flatMap hexByte := by
  intro bytes bytes' h
  induction bytes generalizing bytes' with
  | nil =>
    cases bytes' with
    | nil => rfl
    | cons b bytes' => cases h
  | cons b bytes ih =>
    cases bytes' with
    | nil => cases h
    | cons b' bytes' =>
      obtain ⟨hb,hrest⟩ := List.append_inj h rfl
      rw [hexByte_injective hb,ih hrest]

/-- Different addresses have different digits. -/
theorem digits_injective : Function.Injective MacAddress.digits := by
  rintro ⟨bytes,hl⟩ ⟨bytes',hl'⟩ h
  obtain rfl := flatMap_hexByte_injective h
  rfl

/-- A character of an address is a digit. -/
theorem mem_digits {m : MacAddress} {c : Char} (h : c∈m.digits) :
    c∈"0123456789abcdef".toList := by
  obtain ⟨b,_,hc⟩ := List.mem_flatMap.mp h
  obtain ⟨n,hn,rfl⟩ := mem_hexByte hc
  exact digitChar_mem hn

/-- The digits of an address are usable as a serial number. -/
theorem digits_usable (m : MacAddress) : usable m.digits=true := by
  have hu : 'u'∉m.digits := fun h => absurd (mem_digits h) (by decide)
  obtain ⟨b,bytes,hb⟩ := List.exists_cons_of_length_eq_add_one m.length_eq
  simp only [usable,Bool.and_eq_true,decide_eq_true_eq]
  constructor
  · rw [MacAddress.digits,hb]
    exact List.cons_ne_nil _ _
  · intro h
    rw [h] at hu
    exact hu (by decide)

/-- A character of an address file is a digit or a colon. -/
theorem mem_addressText {bytes : List UInt8} {c : Char} (h : c∈addressText bytes) :
    c∈"0123456789abcdef:".toList := by
  have hbyte : ∀ b,c∈hexByte b → c∈"0123456789abcdef:".toList := by
    intro b hc
    obtain ⟨n,hn,rfl⟩ := mem_hexByte hc
    exact List.mem_append_left [ ':'] (digitChar_mem hn)
  induction bytes using addressText.induct with
  | case1 => exact absurd h List.not_mem_nil
  | case2 b => exact hbyte b h
  | case3 b b' bytes ih =>
    rw [addressText] at h
    rcases List.mem_append.mp h with h|h
    · exact hbyte b h
    rcases List.mem_cons.mp h with rfl|h
    · decide
    · exact ih h

/-- Deleting the colons leaves the digits. -/
theorem delete_addressText (bytes : List UInt8) :
    delete ':' (addressText bytes)=bytes.flatMap hexByte := by
  have hbyte : ∀ b,delete ':' (hexByte b)=hexByte b := by
    intro b
    refine delete_of_notMem fun h => ?_
    obtain ⟨n,hn,he⟩ := mem_hexByte h
    have hmem := digitChar_mem hn
    rw [←he] at hmem
    exact absurd hmem (by decide)
  induction bytes using addressText.induct with
  | case1 => rfl
  | case2 b =>
    rw [addressText,hbyte,List.flatMap_cons,List.flatMap_nil,List.append_nil]
  | case3 b b' bytes ih =>
    have hcolon : delete ':' (':'::addressText (b'::bytes))=delete ':' (addressText (b'::bytes)) :=
      rfl
    rw [addressText,delete_append,hbyte,hcolon,ih]
    rfl

end Addresses

section Reading

variable {shell : Text → Text} {d : Device} {r : Run} {f : Sources}

/-- The third field of the Serial line is the first field behind the colon. -/
theorem field_serialLine (s : Text) :
    field 3 ("Serial\t\t: ".toList++s)=(fields s).getD 0 [] := by
  have hline : "Serial\t\t: ".toList++s="Serial".toList++ '\t'::([]++ '\t'::([':']++ ' '::s)) := rfl
  have hfields : fields ("Serial\t\t: ".toList++s)="Serial".toList::[':']::fields s := by
    rw [hline,fields_append_cons rfl,fields_append_cons rfl,fields_append_cons rfl,
      fields_of_noBlank (t:="Serial".toList) (by decide) (by decide),
      fields_of_noBlank (t:=[':']) (by decide) (by decide)]
    rfl
  rw [field,hfields]
  rfl

/-- Leading zeros are dropped from a text without newlines. -/
theorem newline_notMem_stripZeros {l : Text} (h : '\n'∉l) : '\n'∉stripZeros l :=
  fun hn => h ((List.dropWhile_suffix _).subset hn)

/-- The script reads the serial number as the source shows it. -/
theorem serial_of_shows (h : Shows d r f) : serial f=shown d.serial r.source := by
  have hs := h.serial
  cases hsource : r.source with
  | deviceTree =>
    rw [hsource,ShowsSerial] at hs
    have hnul : delete nul [nul]=[] := rfl
    rw [serial,hs]
    dsimp only [shown]
    rw [delete_append,hnul,List.append_nil,delete_of_notMem d.noNul,
      substitution_of_notMem d.oneLine]
  | cpuinfo =>
    rw [hsource,ShowsSerial] at hs
    obtain ⟨hnone,before,after,hlines,hother⟩ := hs
    have hgrep : lines (keepLines (beginsIgnoringCase "serial".toList) f.cpuinfo)=
        ["Serial\t\t: ".toList++d.serial] := by
      have hbefore : before.filter (beginsIgnoringCase "serial".toList)=[] :=
        List.filter_eq_nil_iff.mpr fun l hl =>
          ne_true_of_eq_false (hother l (List.mem_append_left _ hl))
      have hafter : after.filter (beginsIgnoringCase "serial".toList)=[] :=
        List.filter_eq_nil_iff.mpr fun l hl =>
          ne_true_of_eq_false (hother l (List.mem_append_right _ hl))
      have hline : beginsIgnoringCase "serial".toList ("Serial\t\t: ".toList++d.serial)=true := rfl
      rw [lines_keepLines,hlines,List.filter_append,List.filter_cons,if_pos hline,hbefore,hafter,
        List.nil_append]
    have hfield : ∀ l,'\n'∉l → '\n'∉field 3 l :=
      fun l _ => newline_notMem_of_noBlank (noBlank_field 3 l)
    have hword : '\n'∉(fields d.serial).getD 0 [] :=
      newline_notMem_of_noBlank (noBlank_field 1 d.serial)
    have hawk : lines (mapLines (field 3)
        (keepLines (beginsIgnoringCase "serial".toList) f.cpuinfo))=
          [(fields d.serial).getD 0 []] := by
      rw [lines_mapLines _ hfield,hgrep,List.map_singleton,field_serialLine]
    rw [serial,hnone]
    dsimp only [shown]
    rw [mapLines,hawk,List.map_singleton,unlines,List.flatMap_singleton,
      substitution_line (newline_notMem_stripZeros hword)]

/-- The script reads the address of an Ethernet device, or finds none. -/
theorem mac_of_shows (h : Shows d r f) :
    mac f=if r.ethernet=.absent then "unknown".toList else addressText d.mac.bytes := by
  have hm := h.mac
  have hline : substitution (addressText d.mac.bytes++['\n'])=addressText d.mac.bytes :=
    substitution_line fun hn => absurd (mem_addressText hn) (by decide)
  cases hethernet : r.ethernet with
  | eth0 =>
    rw [hethernet,ShowsMac] at hm
    rw [mac,hm]
    exact hline
  | end0 =>
    rw [hethernet,ShowsMac] at hm
    rw [mac,hm.1,hm.2]
    exact hline
  | absent =>
    rw [hethernet,ShowsMac] at hm
    rw [mac,hm.1,hm.2]
    rfl

/-- What the fallback makes of the address that was read. -/
theorem fallback_of_shows (h : Shows d r f) : substitution (delete ':' (echo shell (mac f)))=
    if r.ethernet=.absent then "unknown".toList else d.mac.digits := by
  rw [mac_of_shows h]
  split
  · rfl
  · have hhyphen : (addressText d.mac.bytes).head?≠some '-' := fun hh =>
      absurd (mem_addressText (List.mem_of_head? hh)) (by decide)
    have hbackslash : '\\'∉addressText d.mac.bytes := fun hb =>
      absurd (mem_addressText hb) (by decide)
    have hnewline : delete ':' ['\n']=['\n'] := rfl
    have hdigits : '\n'∉d.mac.digits := fun hn => absurd (mem_digits hn) (by decide)
    rw [echo,if_neg (not_or.mpr ⟨hhyphen,hbackslash⟩),delete_append,hnewline,delete_addressText]
    exact substitution_line hdigits

/-- The derived name is the prefix with the identity of the device in the run. -/
theorem derivedName_of_shows (h : Shows d r f) :
    derivedName shell f=namePrefix++identity d r := by
  rw [derivedName,targetName,serial_of_shows h,fallback_of_shows h,identity]
  split <;> rfl

end Reading

section Coincidence

variable {d d' : Device} {r r' : Run}

/-- What a run without a usable serial number falls back on. -/
def fallback (d : Device) (r : Run) : Text :=
  if r.ethernet=.absent then "unknown".toList else d.mac.digits

/-- A serial number that both sources show in the same way. -/
def Plain (s : Text) : Prop := s.any isBlank=false ∧ s.head?≠some '0'

instance : DecidablePred Plain := fun _ => instDecidableAnd

/-- The names of two devices with different serial numbers and addresses
differ: the same usable text is not shown for both, the digits of one address
are not shown as the serial number of the other device when the first has no
usable serial number, and not both are without serial number and address. -/
def Distinguished (d : Device) (r : Run) (d' : Device) (r' : Run) : Prop :=
  ¬(usable (shown d.serial r.source)=true ∧
      shown d.serial r.source=shown d'.serial r'.source) ∧
  ¬(usable (shown d.serial r.source)=false ∧ r.ethernet≠.absent ∧
      shown d'.serial r'.source=d.mac.digits) ∧
  ¬(usable (shown d'.serial r'.source)=false ∧ r'.ethernet≠.absent ∧
      shown d.serial r.source=d'.mac.digits) ∧
  ¬(usable (shown d.serial r.source)=false ∧ usable (shown d'.serial r'.source)=false ∧
      r.ethernet=.absent ∧ r'.ethernet=.absent)

instance : Decidable (Distinguished d r d' r') := instDecidableAnd

/-- Twelve zeros, which only the device tree shows, are also the digits of the
address that the other run falls back on. -/
def ZeroAddress (d : Device) (r r' : Run) : Prop :=
  r.source≠r'.source ∧ d.serial=List.replicate 12 '0' ∧ d.mac.digits=List.replicate 12 '0' ∧
    ((r.source=.cpuinfo ∧ r.ethernet≠.absent) ∨ (r'.source=.cpuinfo ∧ r'.ethernet≠.absent))

instance : Decidable (ZeroAddress d r r') := instDecidableAnd

/-- Two runs give one device the same name: both show the same serial number,
and it is usable or both find or miss the Ethernet device. -/
def Stable (d : Device) (r r' : Run) : Prop :=
  ((r.source=r'.source ∨ Plain d.serial) ∧
      (usable (shown d.serial r.source)=true ∨ (r.ethernet=.absent ↔ r'.ethernet=.absent))) ∨
    ZeroAddress d r r'

instance : Decidable (Stable d r r') := instDecidableOr

/-- A text that is not usable. -/
theorem eq_of_usable_eq_false {s : Text} (h : usable s=false) : s=[] ∨ s="unknown".toList := by
  by_contra hn
  rw [not_or] at hn
  have hu : usable s=true := by
    simp only [usable,Bool.and_eq_true,decide_eq_true_eq]
    exact hn
  rw [h] at hu
  exact Bool.false_ne_true hu

/-- The fallback is usable with an Ethernet device only. -/
theorem usable_fallback : usable (fallback d r)=true ↔ r.ethernet≠.absent := by
  rw [fallback]
  split
  · rename_i ha
    exact ⟨fun h => absurd h (by decide),fun h => absurd ha h⟩
  · rename_i ha
    exact ⟨fun _ => ha,fun _ => digits_usable _⟩

/-- The identity is the serial number or the fallback. -/
theorem identity_eq : identity d r=
    if usable (shown d.serial r.source)=true then shown d.serial r.source else fallback d r := rfl

/-- A usable text is the fallback of a run when it is the digits of its address. -/
theorem eq_fallback_iff {s : Text} (hs : usable s=true) :
    s=fallback d r ↔ r.ethernet≠.absent ∧ s=d.mac.digits := by
  constructor
  · intro h
    have ha := usable_fallback.mp (h ▸ hs)
    rw [fallback,if_neg ha] at h
    exact ⟨ha,h⟩
  · rintro ⟨ha,h⟩
    rw [fallback,if_neg ha]
    exact h

/-- Two fallbacks are the same when both runs find the same address or both
find none. -/
theorem fallback_eq_iff : fallback d r=fallback d' r' ↔
    (r.ethernet=.absent ∧ r'.ethernet=.absent) ∨
      (r.ethernet≠.absent ∧ r'.ethernet≠.absent ∧ d.mac=d'.mac) := by
  by_cases ha : r.ethernet=.absent
  · have hu : fallback d r="unknown".toList := if_pos ha
    constructor
    · intro h
      refine Or.inl ⟨ha,?_⟩
      by_contra ha'
      have hf := (usable_fallback (d:=d')).mpr ha'
      rw [←h,hu] at hf
      exact absurd hf (by decide)
    · rintro (⟨_,ha'⟩|⟨hn,_⟩)
      · exact hu.trans (if_pos ha').symm
      · exact absurd ha hn
  · have hu : usable (fallback d r)=true := usable_fallback.mpr ha
    rw [eq_fallback_iff hu,fallback,if_neg ha]
    constructor
    · rintro ⟨ha',h⟩
      exact Or.inr ⟨ha,ha',digits_injective h⟩
    · rintro (⟨hn,_⟩|⟨_,ha',h⟩)
      · exact absurd hn ha
      · exact ⟨ha',congrArg MacAddress.digits h⟩

/-- Devices with different addresses. -/
theorem identity_ne_iff (hmac : d.mac≠d'.mac) :
    identity d r≠identity d' r' ↔ Distinguished d r d' r' := by
  rw [identity_eq,identity_eq,Distinguished]
  have hdiff : ∀ {s t : Text},usable s=true → usable t=false → s≠t := by
    intro s t hs ht h
    rw [h,ht] at hs
    exact Bool.false_ne_true hs
  cases hs : usable (shown d.serial r.source) with
  | true =>
    cases hs' : usable (shown d'.serial r'.source) with
    | true =>
      simp only [if_true,true_and,reduceCtorEq,false_and,not_false_eq_true,and_true,ne_eq]
    | false =>
      simp only [if_true,Bool.false_eq_true,if_false,true_and,reduceCtorEq,false_and,
        not_false_eq_true,and_true,ne_eq,eq_fallback_iff hs,hdiff hs hs']
  | false =>
    cases hs' : usable (shown d'.serial r'.source) with
    | true =>
      simp only [if_true,Bool.false_eq_true,if_false,false_and,not_false_eq_true,true_and,
        reduceCtorEq,and_false,and_true,ne_eq,@eq_comm _ (fallback d r),eq_fallback_iff hs']
    | false =>
      have hdigits : ∀ {s : Text} {m : MacAddress},usable s=false → s≠m.digits :=
        fun hu he => hdiff (digits_usable _) hu he.symm
      simp only [Bool.false_eq_true,if_false,false_and,not_false_eq_true,true_and,
        hdigits hs,hdigits hs',and_false,fallback_eq_iff,hmac,or_false,ne_eq]

/-- Both sources show a serial number alike exactly when it is plain. -/
theorem shown_cpuinfo_eq_iff {s : Text} : shown s .cpuinfo=s ↔ Plain s := by
  have hzero : ∀ t : Text,(stripZeros t).head?≠some '0' := by
    intro t h
    have hn := List.head?_dropWhile_not (fun c => decide (c= '0')) t
    rw [show t.dropWhile (fun c => decide (c= '0'))=stripZeros t from rfl,h] at hn
    exact absurd hn (by decide)
  constructor
  · intro h
    refine ⟨List.any_eq_false.mpr fun c hc => ?_,fun hh => hzero ((fields s).getD 0 []) ?_⟩
    · rw [←h] at hc
      exact List.any_eq_false.mp (noBlank_field 1 s) c ((List.dropWhile_suffix _).subset hc)
    · exact (congrArg List.head? h).trans hh
  · rintro ⟨hblank,hhead⟩
    cases s with
    | nil => rfl
    | cons c t =>
      have hc : c≠ '0' := fun he => hhead (congrArg some he)
      rw [shown,fields_of_noBlank hblank (List.cons_ne_nil c t)]
      exact List.dropWhile_cons_of_neg fun h => hc (of_decide_eq_true h)

/-- An address has twelve digits. -/
theorem length_digits (m : MacAddress) : m.digits.length=12 := by
  have hall : ∀ bytes : List UInt8,(bytes.flatMap hexByte).length=2*bytes.length := by
    intro bytes
    induction bytes with
    | nil => rfl
    | cons b bytes ih =>
      rw [List.flatMap_cons,List.length_append,ih,List.length_cons]
      have hb : (hexByte b).length=2 := rfl
      omega
  have hm := hall m.bytes
  rw [m.length_eq] at hm
  exact hm

/-- The digits of an address are not usable in /proc/cpuinfo when all are zero. -/
theorem shown_digits_unusable {m : MacAddress} (h : usable (shown m.digits .cpuinfo)=false) :
    m.digits=List.replicate 12 '0' := by
  have hblank : m.digits.any isBlank=false := by
    have hall : "0123456789abcdef".toList.any isBlank=false := by decide
    exact List.any_eq_false.mpr fun c hc => List.any_eq_false.mp hall c (mem_digits hc)
  have hne : m.digits≠[] := by
    intro hnil
    have hl := length_digits m
    rw [hnil] at hl
    cases hl
  rw [shown,fields_of_noBlank hblank hne] at h
  rcases eq_of_usable_eq_false h with hnil|hunknown
  · rw [List.eq_replicate_iff]
    refine ⟨length_digits m,fun c hc => ?_⟩
    exact of_decide_eq_true (List.dropWhile_eq_nil_iff.mp hnil c hc)
  · have hu : 'u'∈stripZeros (([m.digits] : List Text).getD 0 []) := by
      rw [hunknown]
      decide
    exact absurd (mem_digits ((List.dropWhile_suffix _).subset hu)) (by decide)

/-- Serial numbers that are shown alike. -/
theorem identity_eq_iff_of_shown (h : shown d.serial r.source=shown d.serial r'.source) :
    identity d r=identity d r' ↔ usable (shown d.serial r.source)=true ∨
      (r.ethernet=.absent ↔ r'.ethernet=.absent) := by
  rw [identity_eq,identity_eq,←h]
  cases usable (shown d.serial r.source) with
  | true => simp only [if_true,true_or]
  | false =>
    simp only [Bool.false_eq_true,if_false,false_or,fallback_eq_iff,and_true,ne_eq]
    by_cases ha : r.ethernet=.absent <;> simp only [ha,true_and,not_true_eq_false,false_and,
      or_false,true_iff,not_false_eq_true,false_or,false_iff]

/-- The two sources, one after the other. -/
theorem identity_deviceTree_eq_iff (hr : r.source=.deviceTree) (hr' : r'.source=.cpuinfo) :
    identity d r=identity d r' ↔ Stable d r r' := by
  have hne : r.source≠r'.source := by
    rw [hr,hr']
    exact SerialSource.noConfusion
  by_cases hp : Plain d.serial
  · have hshown : shown d.serial r.source=shown d.serial r'.source := by
      rw [hr,hr']
      exact (shown_cpuinfo_eq_iff.mpr hp).symm
    have hzero : ¬ZeroAddress d r r' := by
      rintro ⟨_,hz,_⟩
      refine hp.2 ?_
      rw [hz]
      rfl
    rw [identity_eq_iff_of_shown hshown,Stable]
    simp only [hp,or_true,true_and,hzero,or_false]
  · have hshown : shown d.serial r.source≠shown d.serial r'.source := by
      rw [hr,hr']
      exact fun h => hp (shown_cpuinfo_eq_iff.mp h.symm)
    have hu : usable (shown d.serial r.source)=true := by
      rw [hr]
      by_contra hn
      rcases eq_of_usable_eq_false (eq_false_of_ne_true hn) with h|h <;>
        exact hp (by rw [show d.serial=_ from h]; decide)
    rw [identity_eq,identity_eq,if_pos hu,Stable]
    simp only [hne,hp,or_self,false_and,false_or]
    cases hu' : usable (shown d.serial r'.source) with
    | true =>
      rw [if_pos rfl]
      refine ⟨fun h => absurd h hshown,fun hz => ?_⟩
      rw [hr',hz.2.1] at hu'
      exact absurd hu' (by decide)
    | false =>
      rw [if_neg Bool.false_ne_true,eq_fallback_iff hu]
      constructor
      · rintro ⟨ha,hs⟩
        rw [hr] at hs
        have hs' : d.serial=d.mac.digits := hs
        rw [hr',hs'] at hu'
        have hzeros := shown_digits_unusable hu'
        exact ⟨hne,hs'.trans hzeros,hzeros,Or.inr ⟨hr',ha⟩⟩
      · rintro ⟨_,hs,hm,ha⟩
        refine ⟨?_,?_⟩
        · rcases ha with ⟨hsource,_⟩|⟨_,ha⟩
          · rw [hr] at hsource
            cases hsource
          · exact ha
        · rw [hr]
          exact hs.trans hm.symm

/-- Stability does not depend on the order of the runs. -/
theorem stable_comm : Stable d r r' ↔ Stable d r' r := by
  have hone : ∀ r r' : Run,Stable d r r' → Stable d r' r := by
    rintro r r' (⟨hsame,huse⟩|⟨hne,hs,hm,ha⟩)
    · have hshown : shown d.serial r.source=shown d.serial r'.source := by
        rcases hsame with h|hp
        · rw [h]
        · have heq : ∀ source,shown d.serial source=d.serial := by
            intro source
            cases source with
            | deviceTree => rfl
            | cpuinfo => exact shown_cpuinfo_eq_iff.mpr hp
          rw [heq,heq]
      exact Or.inl ⟨hsame.imp_left Eq.symm,huse.imp (fun h => hshown ▸ h) Iff.symm⟩
    · exact Or.inr ⟨hne.symm,hs,hm,ha.symm⟩
  exact ⟨hone r r',hone r' r⟩

/-- Two runs on one device. -/
theorem identity_eq_iff_stable : identity d r=identity d r' ↔ Stable d r r' := by
  by_cases hsame : r.source=r'.source
  · have hshown : shown d.serial r.source=shown d.serial r'.source := by rw [hsame]
    have hzero : ¬ZeroAddress d r r' := fun h => h.1 hsame
    rw [identity_eq_iff_of_shown hshown,Stable]
    simp only [hsame,true_or,true_and,hzero,or_false]
  · cases hr : r.source with
    | deviceTree =>
      cases hr' : r'.source with
      | deviceTree => exact absurd (hr.trans hr'.symm) hsame
      | cpuinfo => exact identity_deviceTree_eq_iff hr hr'
    | cpuinfo =>
      cases hr' : r'.source with
      | cpuinfo => exact absurd (hr.trans hr'.symm) hsame
      | deviceTree =>
        rw [eq_comm,stable_comm]
        exact identity_deviceTree_eq_iff hr' hr

end Coincidence

/-- For every two devices and all runs on them: the names of devices with
different serial numbers and addresses differ exactly when the devices are
distinguished, and two runs give one device the same name exactly when the
name is stable. -/
theorem derivedName_identifies_iff (shell : Text → Text) (d d' : Device) (r r' : Run)
    (f f' f'' : Sources) (h : Shows d r f) (h' : Shows d' r' f') (h'' : Shows d r' f'') :
    (d.serial≠d'.serial → d.mac≠d'.mac →
      (derivedName shell f≠derivedName shell f' ↔ Distinguished d r d' r')) ∧
    (derivedName shell f=derivedName shell f'' ↔ Stable d r r') := by
  rw [derivedName_of_shows h,derivedName_of_shows h',derivedName_of_shows h'']
  constructor
  · intro _ hmac
    rw [←identity_ne_iff hmac]
    exact (List.append_right_injective namePrefix).ne_iff
  · rw [←identity_eq_iff_stable]
    exact (List.append_right_injective namePrefix).eq_iff

/-- A device with a sixteen-digit serial number that begins with zeros. -/
def padded : Device where
  serial := "00000000a1b2c3d4".toList
  mac := ⟨[0xdc,0xa6,0x32,0,0,1],rfl⟩
  noNul := by decide
  oneLine := by decide

/-- A device whose serial number is the last half of the other. -/
def unpadded : Device where
  serial := "a1b2c3d4".toList
  mac := ⟨[0xdc,0xa6,0x32,0,0,2],rfl⟩
  noNul := by decide
  oneLine := by decide

/-- The files with the serial number of a device in the device tree. -/
def inDeviceTree (d : Device) : Sources :=
  ⟨some (d.serial++[nul]),[],some (addressText d.mac.bytes++['\n']),none⟩

/-- The files with the serial number of a device in /proc/cpuinfo only. -/
def inCpuinfo (d : Device) : Sources :=
  ⟨none,unlines ["processor\t: 0".toList,"Serial\t\t: ".toList++d.serial],none,
    some (addressText d.mac.bytes++['\n'])⟩

theorem shows_inDeviceTree (d : Device) : Shows d ⟨.deviceTree,.eth0⟩ (inDeviceTree d) := ⟨rfl,rfl⟩

theorem shows_inCpuinfo (d : Device) : Shows d ⟨.cpuinfo,.end0⟩ (inCpuinfo d) := by
  refine ⟨⟨rfl,["processor\t: 0".toList],[],?_,by decide⟩,rfl,rfl⟩
  refine lines_unlines fun l hl => ?_
  rcases List.mem_cons.mp hl with rfl|hl
  · decide
  · obtain rfl := List.mem_singleton.mp hl
    intro hn
    rcases List.mem_append.mp hn with hn|hn
    · exact absurd hn (by decide)
    · exact d.oneLine hn

/-- Two devices are named apart and each keeps its name. -/
theorem derivedName_identifies_iff_unpadded :
    derivedName id (inDeviceTree padded)≠derivedName id (inDeviceTree unpadded) ∧
      derivedName id (inCpuinfo unpadded)=derivedName id (inDeviceTree unpadded) :=
  ⟨((derivedName_identifies_iff id padded unpadded ⟨.deviceTree,.eth0⟩ ⟨.deviceTree,.eth0⟩ _ _ _
      (shows_inDeviceTree padded) (shows_inDeviceTree unpadded) (shows_inDeviceTree padded)).1
        (by decide) (by decide)).mpr (by decide),
    (derivedName_identifies_iff id unpadded padded ⟨.cpuinfo,.end0⟩ ⟨.deviceTree,.eth0⟩ _ _ _
      (shows_inCpuinfo unpadded) (shows_inDeviceTree padded) (shows_inDeviceTree unpadded)).2.mpr
        (by decide)⟩

/-- Two devices share a name, and one device has two names. -/
theorem derivedName_not_identity :
    (padded.serial≠unpadded.serial ∧ padded.mac≠unpadded.mac ∧
      Shows padded ⟨.cpuinfo,.end0⟩ (inCpuinfo padded) ∧
      Shows unpadded ⟨.deviceTree,.eth0⟩ (inDeviceTree unpadded) ∧
      derivedName id (inCpuinfo padded)=derivedName id (inDeviceTree unpadded)) ∧
    Shows padded ⟨.deviceTree,.eth0⟩ (inDeviceTree padded) ∧
      derivedName id (inCpuinfo padded)≠derivedName id (inDeviceTree padded) :=
  ⟨⟨by decide,by decide,shows_inCpuinfo padded,shows_inDeviceTree unpadded,by decide⟩,
    shows_inDeviceTree padded,by decide⟩

end Greenhouse.HawkbitIdentity
