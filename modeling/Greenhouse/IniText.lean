import Greenhouse.ShellText

/-!
# Files of sections with keys and values

Each line is blank or a comment, a header in brackets, or a pair of a key and a
value; white space around these does not count. A pair belongs to the section
of the last header in front of it, and the last pair of a key in a section
counts.
-/

namespace Greenhouse.IniText

open ShellText

/-- A pair of a key and a value. -/
structure Pair where
  key : Text
  value : Text
  /-- No white space stands in front of the key. -/
  atStart : Bool
  deriving DecidableEq

/-- What a line says. -/
inductive Item
  /-- The line is empty or a comment. -/
  | nothing
  | header (name : Text) (atStart : Bool)
  | pair (p : Pair)
  | malformed
  deriving DecidableEq

/-- A white space character. -/
def isSpace (c : Char) : Bool := decide (c= ' ' ∨ '\t' ≤ c ∧ c ≤ '\r')

/-- A text without the white space around it. -/
def trim (t : Text) : Text := (t.dropWhile isSpace).rdropWhile isSpace

/-- No white space stands in front of the text. -/
def startsAtOnce (l : Text) : Bool := decide (l.dropWhile isSpace=l)

/-- The text in front of a character. -/
def upTo (c : Char) (t : Text) : Text := t.takeWhile fun x => decide (x≠c)

/-- The text behind a character. -/
def behind (c : Char) (t : Text) : Text := (t.dropWhile fun x => decide (x≠c)).tail

/-- Read a line. -/
def item (l : Text) : Item :=
  match l.dropWhile isSpace with
  | [] => .nothing
  | c::t =>
    if c= '#' ∨ c= ';' then .nothing
    else if c= '[' then
      if ']'∈t ∧ (behind ']' t).all isSpace=true then .header (upTo ']' t) (startsAtOnce l)
      else .malformed
    else if c≠ '=' ∧ '='∈t then
      .pair ⟨(c::upTo '=' t).rdropWhile isSpace,trim (behind '=' t),startsAtOnce l⟩
    else .malformed

/-- What the lines of a file say. -/
def items (t : Text) : List Item := (lines t).map item

/-- Every line of the file can be read. -/
def IsIni (t : Text) : Prop := Item.malformed∉items t

instance (t : Text) : Decidable (IsIni t) := inferInstanceAs (Decidable (Item.malformed∉items t))

/-- A header of the section. -/
def isHeader (name : Text) (i : Item) : Bool := decide (i=.header name true ∨ i=.header name false)

/-- The number of headers of a section. -/
def headers (name t : Text) : ℕ := (items t).countP (isHeader name)

/-- The section behind an item. -/
def sectionBehind (now : Option Text) : Item → Option Text
  | .header name _ => some name
  | _ => now

/-- A pair of a key that stands in a section. -/
def pairOf (s : Option Text) (key : Text) (now : Option Text) : Item → Option Pair
  | .pair p => if now=s ∧ p.key=key then some p else none
  | _ => none

/-- The last pair of a key in a section. The first section is the one of the
items in front of all headers. -/
def lastPair (s : Option Text) (key : Text) : Option Text → List Item → Option Pair
  | _,[] => none
  | now,i::is => (lastPair s key (sectionBehind now i) is).or (pairOf s key now i)

/-- The last pair of a key in a section of a file. -/
def pairAt (t : Text) (s : Option Text) (key : Text) : Option Pair := lastPair s key none (items t)

/-- The value of a key in a section of a file. -/
def valueAt (t : Text) (s : Option Text) (key : Text) : Option Text := (pairAt t s key).map Pair.value

/-- A key or a section that needs no white space and has no special character. -/
def IsName (k : Text) : Prop :=
  k≠[] ∧ ∀ c∈k,isSpace c=false ∧ c∉['=','#',';','[',']']

instance (k : Text) : Decidable (IsName k) :=
  @instDecidableAnd _ _ _ (List.decidableBAll _ k)

/-- How a pair is written. -/
def pairLine (key value : Text) : Text := key++ ' ':: '=':: ' '::value

/-- The characters of a text differ from one that it does not have. -/
theorem ne_of_notMem {c : Char} {a : Text} (h : c∉a) : ∀ x∈a,decide (x≠c)=true := fun _ hx =>
  decide_eq_true fun he => h (he ▸ hx)

/-- A text up to a character. -/
theorem upTo_append {c : Char} {a : Text} (b : Text) (h : c∉a) : upTo c (a++c::b)=a := by
  rw [upTo,List.takeWhile_append_of_pos (ne_of_notMem h),
    List.takeWhile_cons_of_neg (by simp),List.append_nil]

/-- A text behind a character. -/
theorem behind_append {c : Char} {a : Text} (b : Text) (h : c∉a) : behind c (a++c::b)=b := by
  rw [behind,List.dropWhile_append_of_pos (ne_of_notMem h),
    List.dropWhile_cons_of_neg (by simp)]
  rfl

/-- A text falls into two at a character that it has. -/
theorem upTo_behind {c : Char} {t : Text} (h : c∈t) : t=upTo c t++c::behind c t := by
  obtain ⟨a,b,rfl,ha⟩ := List.eq_append_cons_of_mem h
  rw [upTo_append b ha,behind_append b ha]

/-- White space at the end is dropped up to a character that is none. -/
theorem rdropWhile_append {k s : Text} (hk : ∀ c∈k,isSpace c=false) (hs : s.all isSpace=true) :
    (k++s).rdropWhile isSpace=k := by
  have hspaces : ∀ c∈s.reverse,isSpace c=true := fun c hc =>
    List.all_eq_true.mp hs c (List.mem_reverse.mp hc)
  have hkeep : k.reverse.dropWhile isSpace=k.reverse := by
    cases hr : k.reverse with
    | nil => rfl
    | cons c r =>
      have hc : c∈k := List.mem_reverse.mp (hr ▸ List.mem_cons_self)
      exact List.dropWhile_cons_of_neg (ne_true_of_eq_false (hk c hc))
  rw [List.rdropWhile,List.reverse_append,List.dropWhile_append_of_pos hspaces,hkeep,
    List.reverse_reverse]

/-- A text without white space is its own trim. -/
theorem trim_of_noSpace {t : Text} (h : ∀ c∈t,isSpace c=false) : trim t=t := by
  have hfront : t.dropWhile isSpace=t := by
    cases t with
    | nil => rfl
    | cons c t => exact List.dropWhile_cons_of_neg (ne_true_of_eq_false (h c List.mem_cons_self))
  have hend := rdropWhile_append h (s:=[]) rfl
  rw [List.append_nil] at hend
  rw [trim,hfront,hend]
section Lines

variable {key value l : Text}

/-- A line with a name, white space and an equals sign is a pair. -/
theorem item_of_name (h : IsName key) {s : Text} (hs : s.all isSpace=true) (r : Text) :
    item (key++(s++ '='::r))=.pair ⟨key,trim r,true⟩ := by
  cases key with
  | nil => exact absurd rfl h.1
  | cons c k =>
    obtain ⟨hspace,hspecial⟩ := h.2 c List.mem_cons_self
    have hstart : (c::(k++(s++ '='::r))).dropWhile isSpace=c::(k++(s++ '='::r)) :=
      List.dropWhile_cons_of_neg (ne_true_of_eq_false hspace)
    simp only [List.mem_cons,List.not_mem_nil,or_false,not_or] at hspecial
    obtain ⟨hequals,hhash,hsemicolon,hbracket,_⟩ := hspecial
    have hno : '='∉k++s := by
      intro hm
      rcases List.mem_append.mp hm with hm|hm
      · exact (h.2 _ (List.mem_cons_of_mem _ hm)).2 List.mem_cons_self
      · exact absurd (List.all_eq_true.mp hs _ hm) (by decide)
    have hmem : '='∈k++(s++ '='::r) :=
      List.mem_append_right _ (List.mem_append_right _ List.mem_cons_self)
    have hkey : (c::(k++s)).rdropWhile isSpace=c::k :=
      rdropWhile_append (fun x hx => (h.2 x hx).1) hs
    rw [item,startsAtOnce,List.cons_append,hstart]
    dsimp only
    rw [if_neg (not_or.mpr ⟨hhash,hsemicolon⟩),if_neg hbracket,if_pos ⟨hequals,hmem⟩,
      ←List.append_assoc,upTo_append r hno,behind_append r hno,hkey,decide_eq_true rfl]

/-- A written pair is read back. -/
theorem item_pairLine (h : IsName key) (hv : ∀ c∈value,isSpace c=false) :
    item (pairLine key value)=.pair ⟨key,value,true⟩ := by
  have htrim : trim (' '::value)=value := by
    have hspace : (' '::value).dropWhile isSpace=value.dropWhile isSpace :=
      List.dropWhile_cons_of_pos rfl
    rw [trim,hspace]
    exact trim_of_noSpace hv
  have hitem := item_of_name h (s:=[' ']) rfl (' '::value)
  rwa [htrim] at hitem

/-- A written pair is one line. -/
theorem newline_notMem_pairLine (h : IsName key) (hv : ∀ c∈value,isSpace c=false) :
    '\n'∉pairLine key value := by
  have hno : ∀ u : Text,(∀ c∈u,isSpace c=false) → '\n'∉u := fun u hu hm =>
    absurd (hu _ hm) (by decide)
  rw [pairLine]
  simp only [List.mem_append,List.mem_cons,not_or]
  exact ⟨hno key fun c hc => (h.2 c hc).1,by decide,by decide,by decide,hno value hv⟩

/-- A written pair is not empty. -/
theorem pairLine_ne_nil : pairLine key value≠[] :=
  List.append_ne_nil_of_right_ne_nil _ (List.cons_ne_nil _ _)

/-- A pair at the start of its line. -/
theorem exists_of_item_eq_pair {p : Pair} (h : item l=.pair p) (hstart : p.atStart=true) :
    ∃ s r,s.all isSpace=true ∧ l=p.key++(s++ '='::r) := by
  rw [item] at h
  split at h
  · cases h
  rename_i c t hl
  split at h
  · cases h
  split at h
  · split at h <;> cases h
  split at h
  · rename_i hequals
    cases h
    have hline : l=c::t := by
      rw [←hl]
      exact (of_decide_eq_true hstart).symm
    refine ⟨(c::upTo '=' t).rtakeWhile isSpace,behind '=' t,?_,?_⟩
    · exact List.all_eq_true.mpr fun x hx => List.mem_rtakeWhile_imp hx
    · rw [←List.append_assoc,List.rdropWhile_append_rtakeWhile,List.cons_append,
        ←upTo_behind hequals.2]
      exact hline
  · cases h

end Lines

section Reading

variable {s : Option Text} {key name : Text} {now : Option Text} {is : List Item}

/-- A pair that is found has the key. -/
theorem key_of_lastPair {p : Pair} (h : lastPair s key now is=some p) : p.key=key := by
  induction is generalizing now with
  | nil => cases h
  | cons i is ih =>
    rw [lastPair,Option.or_eq_some_iff] at h
    rcases h with h|⟨_,h⟩
    · exact ih h
    · cases i with
      | pair q =>
        rw [pairOf,Option.ite_none_right_eq_some] at h
        rw [←Option.some.inj h.2]
        exact h.1.2
      | nothing | header | malformed => cases h

/-- A pair that is found is an item. -/
theorem mem_of_lastPair {p : Pair} (h : lastPair s key now is=some p) : .pair p∈is := by
  induction is generalizing now with
  | nil => cases h
  | cons i is ih =>
    rw [lastPair,Option.or_eq_some_iff] at h
    rcases h with h|⟨_,h⟩
    · exact List.mem_cons_of_mem _ (ih h)
    · cases i with
      | pair q =>
        rw [pairOf,Option.ite_none_right_eq_some] at h
        rw [Option.some.inj h.2]
        exact List.mem_cons_self
      | nothing | header | malformed => cases h

/-- The last pair of two parts is that of the second, if it has one. -/
theorem lastPair_append (left right : List Item) : lastPair s key now (left++right)=
    (lastPair s key (left.foldl sectionBehind now) right).or (lastPair s key now left) := by
  induction left generalizing now with
  | nil => exact Option.or_none.symm
  | cons i left ih =>
    rw [List.cons_append,lastPair,ih,Option.or_assoc]
    rfl

/-- Without its header a section has no pairs. -/
theorem lastPair_eq_none (hnow : now≠some name) (h : ∀ i∈is,isHeader name i=false) :
    lastPair (some name) key now is=none := by
  induction is generalizing now with
  | nil => rfl
  | cons i is ih =>
    obtain ⟨hi,his⟩ := List.forall_mem_cons.mp h
    rw [lastPair,Option.or_eq_none_iff]
    cases i with
    | header title start =>
      refine ⟨ih (fun he => of_decide_eq_false hi ?_) his,rfl⟩
      rw [Option.some.inj he]
      cases start with
      | true => exact Or.inl rfl
      | false => exact Or.inr rfl
    | pair p => exact ⟨ih hnow his,if_neg fun hp => hnow hp.1⟩
    | nothing | malformed => exact ⟨ih hnow his,rfl⟩

/-- The only header of a section parts the items. -/
theorem exists_header (h : is.countP (isHeader name)=1) : ∃ left i right,is=left++i::right ∧
    isHeader name i=true ∧ (∀ x∈left,isHeader name x=false) ∧ ∀ x∈right,isHeader name x=false := by
  obtain ⟨i,hi,hheader⟩ := List.countP_pos_iff.mp (h ▸ Nat.one_pos)
  obtain ⟨left,right,rfl⟩ := List.append_of_mem hi
  rw [List.countP_append,List.countP_cons_of_pos hheader] at h
  have hnone : ∀ part : List Item,part.countP (isHeader name)=0 → ∀ x∈part,isHeader name x=false :=
    fun part hpart x hx => eq_false_of_ne_true (List.countP_eq_zero.mp hpart x hx)
  exact ⟨left,i,right,rfl,hheader,hnone left (by omega),hnone right (by omega)⟩

end Reading

end Greenhouse.IniText
