import Greenhouse.ShellText

/-!
# Comparisons in awk

A value that is assigned with -v has its escape sequences processed. Two
operands that both look like numbers are compared as numbers, others as texts.
What looks like a number and which numbers are equal is left to the awk that
runs. A name that has been printed with its backslashes and double quotes
escaped is then found by an argument in two ways: as the same number, or as the
text that the processed argument is.
-/

namespace Greenhouse.AwkText

open ShellText

/-- What an awk makes of texts from outside of its program. -/
structure Awk where
  /-- The value of a variable that is assigned with -v. -/
  assigned : Text → Text
  /-- Whether a text looks like a number. -/
  numeric : Text → Bool
  /-- Whether two texts that look like numbers are equal as numbers. -/
  sameNumber : Text → Text → Bool

/-- Both texts look like numbers, and these are equal. -/
def Awk.equalNumbers (awk : Awk) (a b : Text) : Bool :=
  awk.numeric a && awk.numeric b && awk.sameNumber a b

/-- The comparison of two texts with ==. -/
def Awk.equal (awk : Awk) (a b : Text) : Bool :=
  if (awk.numeric a && awk.numeric b)=true then awk.sameNumber a b else decide (a=b)

/-- What is known of every awk. -/
structure Awk.Documented (awk : Awk) : Prop where
  /-- Only a backslash begins an escape sequence. -/
  assigned_plain : ∀ t,'\\'∉t → awk.assigned t=t
  /-- An escape sequence stands for one character. -/
  assigned_length : ∀ t,(awk.assigned t).length≤t.length
  /-- A number has no backslash and no double quote. -/
  numeric_plain : ∀ t,awk.numeric t=true → '\\'∉t ∧ '"'∉t

/-- A field of a line that tabs separate, counted from one; empty when there is
none. -/
def tabField (n : ℕ) (l : Text) : Text := (l.splitOn '\t').getD (n-1) []

/-- A text without a character that is escaped. -/
def IsPlain (t : Text) : Prop := '\\'∉t ∧ '"'∉t

instance : DecidablePred IsPlain := fun t => inferInstanceAs (Decidable ('\\'∉t ∧ '"'∉t))

/-- How a character is printed. -/
def escapedChar (c : Char) : Text := if c= '\\' ∨ c= '"' then ['\\',c] else [c]

/-- How a text is printed: backslashes and double quotes behind a backslash. -/
def escaped (t : Text) : Text := t.flatMap escapedChar

/-- The printed name equals the argument, which is assigned with -v. -/
def Awk.finds (awk : Awk) (argument name : Text) : Bool :=
  awk.equal (escaped name) (awk.assigned argument)

/-- A text without tabs is one field. -/
theorem splitOn_of_notMem {a : Text} (h : '\t'∉a) : a.splitOn '\t'=[a] :=
  List.splitOn_eq_splitOnP.trans (List.splitOnP_eq_singleton fun _ hc =>
    beq_false_of_ne fun he => h (he ▸ hc))

/-- The first field of a line. -/
theorem tabField_one {a : Text} (b : Text) (h : '\t'∉a) : tabField 1 (a++ '\t'::b)=a := by
  rw [tabField,List.splitOn_append_cons_self,splitOn_of_notMem h]
  rfl

/-- The fields behind the first one. -/
theorem tabField_succ {a : Text} (n : ℕ) (b : Text) (h : '\t'∉a) :
    tabField (n+2) (a++ '\t'::b)=tabField (n+1) b := by
  rw [tabField,List.splitOn_append_cons_self,splitOn_of_notMem h]
  rfl

/-- Some character of the text is escaped. -/
theorem not_isPlain_iff {t : Text} : ¬IsPlain t ↔ ∃ c∈t,c= '\\' ∨ c= '"' := by
  rw [IsPlain,not_and_or,not_not,not_not]
  constructor
  · rintro (h|h)
    · exact ⟨_,h,Or.inl rfl⟩
    · exact ⟨_,h,Or.inr rfl⟩
  · rintro ⟨c,hc,rfl|rfl⟩
    · exact Or.inl hc
    · exact Or.inr hc

/-- A plain text is printed as it is. -/
theorem escaped_of_isPlain {t : Text} (h : IsPlain t) : escaped t=t := by
  induction t with
  | nil => rfl
  | cons c t ih =>
    have hc : ¬(c= '\\' ∨ c= '"') := fun hc => not_isPlain_iff.mpr ⟨c,List.mem_cons_self,hc⟩ h
    have ht : IsPlain t := ⟨fun hm => h.1 (List.mem_cons_of_mem _ hm),
      fun hm => h.2 (List.mem_cons_of_mem _ hm)⟩
    rw [escaped,List.flatMap_cons,escapedChar,if_neg hc]
    exact congrArg (List.cons c) (ih ht)

/-- Printing does not shorten a text. -/
theorem length_le_escaped (t : Text) : t.length≤(escaped t).length := by
  induction t with
  | nil => exact le_refl 0
  | cons c t ih =>
    rw [escaped,List.flatMap_cons,List.length_append,List.length_cons]
    have hc : 1≤(escapedChar c).length := by
      unfold escapedChar
      split
      · exact Nat.le_succ 1
      · exact le_refl 1
    have ht : t.length≤(t.flatMap escapedChar).length := ih
    omega

/-- A text that is not plain is printed longer, with a backslash. -/
theorem escaped_of_not_isPlain {t : Text} (h : ¬IsPlain t) :
    t.length<(escaped t).length ∧ '\\'∈escaped t := by
  obtain ⟨c,hc,hs⟩ := not_isPlain_iff.mp h
  obtain ⟨left,right,rfl⟩ := List.append_of_mem hc
  have hprint : escaped (left++c::right)=escaped left++ '\\'::c::escaped right := by
    rw [escaped,List.flatMap_append,List.flatMap_cons,escapedChar,if_pos hs]
    rfl
  rw [hprint]
  constructor
  · have hleft := length_le_escaped left
    have hright := length_le_escaped right
    simp only [List.length_append,List.length_cons]
    omega
  · exact List.mem_append_right _ List.mem_cons_self

section Finding

variable {awk : Awk} {argument name : Text}

/-- A name is found as the same number, or as the text of the argument. -/
theorem finds_iff (h : awk.Documented) : awk.finds argument name=true ↔
    awk.equalNumbers name (awk.assigned argument)=true ∨
      escaped name=awk.assigned argument ∧ awk.numeric (awk.assigned argument)=false := by
  have hprinted : ∀ t,awk.numeric t=true → escaped t=t := fun t ht =>
    escaped_of_isPlain (h.numeric_plain t ht)
  have hnumeric : awk.numeric (escaped name)=awk.numeric name := by
    rw [Bool.eq_iff_iff]
    constructor
    · intro he
      by_cases hp : IsPlain name
      · rwa [escaped_of_isPlain hp] at he
      · exact absurd (escaped_of_not_isPlain hp).2 (h.numeric_plain _ he).1
    · intro hn
      rwa [hprinted name hn]
  rw [Awk.finds,Awk.equal,Awk.equalNumbers,hnumeric]
  by_cases hboth : (awk.numeric name && awk.numeric (awk.assigned argument))=true
  · obtain ⟨hn,ha⟩ := Bool.and_eq_true_iff.mp hboth
    rw [if_pos hboth,hboth,Bool.true_and,hprinted name hn,ha]
    exact ⟨Or.inl,fun hor => hor.resolve_right fun hr => absurd hr.2 (by decide)⟩
  · rw [if_neg hboth,eq_false_of_ne_true hboth,Bool.false_and,decide_eq_true_iff]
    constructor
    · intro he
      refine Or.inr ⟨he,eq_false_of_ne_true fun ha => hboth ?_⟩
      rw [←he,hnumeric] at ha
      rw [Bool.and_eq_true_iff,←he,hnumeric]
      exact ⟨ha,ha⟩
    · rintro (hf|⟨he,_⟩)
      · cases hf
      · exact he

/-- A name is found by itself when it is plain, and equal to itself in case it
looks like a number. -/
theorem finds_self_iff (h : awk.Documented) : awk.finds name name=true ↔
    IsPlain name ∧ (awk.numeric name=true → awk.sameNumber name name=true) := by
  by_cases hp : IsPlain name
  · rw [Awk.finds,escaped_of_isPlain hp,h.assigned_plain name hp.1,Awk.equal,Bool.and_self]
    cases awk.numeric name with
    | true => exact ⟨fun hs => ⟨hp,fun _ => hs⟩,fun hs => hs.2 rfl⟩
    | false => exact ⟨fun _ => ⟨hp,fun hf => absurd hf Bool.false_ne_true⟩,fun _ => decide_eq_true rfl⟩
  · refine iff_of_false (fun hf => ?_) fun hs => hp hs.1
    rcases (finds_iff h).mp hf with hn|⟨he,_⟩
    · rw [Awk.equalNumbers,Bool.and_eq_true_iff,Bool.and_eq_true_iff] at hn
      exact hp (h.numeric_plain name hn.1.1)
    · have hlong := (escaped_of_not_isPlain hp).1
      rw [he] at hlong
      exact absurd (h.assigned_length name) (Nat.not_le.mpr hlong)

/-- Another name is found by a plain argument only as the same number. -/
theorem finds_of_isPlain (h : awk.Documented) (hp : IsPlain argument) (hne : name≠argument) :
    awk.finds argument name=awk.equalNumbers name argument := by
  rw [Bool.eq_iff_iff,finds_iff h,h.assigned_plain argument hp.1]
  refine or_iff_left fun he => hne ?_
  by_cases hn : IsPlain name
  · rw [←escaped_of_isPlain hn,he.1]
  · have hm := (escaped_of_not_isPlain hn).2
    rw [he.1] at hm
    exact absurd hm hp.1

end Finding

/-- The character that an escape sequence of one letter stands for. -/
def unescapedChar (c : Char) : Char := if c= 'n' then '\n' else if c= 't' then '\t' else c

/-- Process escape sequences of one letter. -/
def processed : Text → Text
  | [] => []
  | ['\\'] => ['\\']
  | '\\'::c::t => unescapedChar c::processed t
  | c::t => c::processed t

/-- An awk with escape sequences of one letter, for which rows of digits are
numbers. -/
def digitAwk : Awk where
  assigned := processed
  numeric := fun t => !t.isEmpty && t.all Char.isDigit
  sameNumber := fun a b => decide (Nat.ofDigitChars 10 a 0=Nat.ofDigitChars 10 b 0)

theorem documented_digitAwk : digitAwk.Documented where
  assigned_plain := by
    intro t h
    induction t with
    | nil => rfl
    | cons c t ih =>
      have hc : c≠ '\\' := fun hc => h (hc ▸ List.mem_cons_self)
      have hstep : processed (c::t)=c::processed t := by
        rw [processed]
        · exact fun he _ => hc he
        · exact fun _ _ he _ => hc he
      exact hstep.trans (congrArg (List.cons c) (ih fun hm => h (List.mem_cons_of_mem _ hm)))
  assigned_length := by
    intro t
    have hlength : (processed t).length≤t.length := by
      fun_induction processed t with
      | case1 => exact le_refl 0
      | case2 => exact le_refl 1
      | case3 c t ih =>
        simp only [List.length_cons]
        omega
      | case4 c t _ _ ih => exact Nat.succ_le_succ ih
    exact hlength
  numeric_plain := by
    intro t h
    have hall : ∀ c∈t,c.isDigit=true := List.all_eq_true.mp (Bool.and_eq_true_iff.mp h).2
    exact ⟨fun hm => absurd (hall _ hm) (by decide),fun hm => absurd (hall _ hm) (by decide)⟩

end Greenhouse.AwkText
