import Greenhouse.PlaceholderSubstitution
import Greenhouse.ShellText

/-!
# Substitution commands of sed

A script of s commands with literal patterns and the flag g is read command by
command. In the replacement the delimiter, the newline, the ampersand and the
backslash are not themselves. A script outside of this part of the language is
left to the sed that runs it. Lines are changed by one command after the other.
-/

namespace Greenhouse.SedScript

open PlaceholderSubstitution ShellText

/-- A part of a replacement. -/
inductive Piece
  | char (c : Char)
  /-- The ampersand stands for what the pattern has matched. -/
  | matched
  /-- A backslash in front of a character that it makes ordinary. -/
  | escaped (c : Char)
  deriving DecidableEq

/-- A substitution command with the flag g. -/
structure Command where
  pattern : Text
  replacement : List Piece
  deriving DecidableEq

/-- What sed does with a script that is not read here, none for an error. -/
abbrev Sed := List Text → List Text → Option (List Text)

/-- The characters a pattern may have here; they match themselves. -/
def isLiteral (c : Char) : Bool := c.isAlphanum || decide (c= '_' ∨ c= '@')

/-- Read a pattern up to the delimiter, with the text behind it. -/
def readPattern (delimiter : Char) : Text → Option (Text×Text)
  | [] => none
  | c::t =>
    if c=delimiter then some ([],t)
    else if isLiteral c=true then (readPattern delimiter t).map fun r => (c::r.1,r.2)
    else none

/-- The characters that are not themselves in a replacement. -/
def special (delimiter : Char) : Text := [delimiter,'\n','&','\\']

/-- Read a replacement up to the delimiter, behind a backslash or not, with the
text that follows. -/
def readReplacement (delimiter : Char) : Bool → Text → Option (List Piece×Text)
  | _,[] => none
  | true,c::t =>
    if c∈special delimiter then
      (readReplacement delimiter false t).map fun r => (.escaped c::r.1,r.2)
    else none
  | false,c::t =>
    if c=delimiter then some ([],t)
    else if c= '\n' then none
    else if c= '&' then (readReplacement delimiter false t).map fun r => (.matched::r.1,r.2)
    else if c= '\\' then readReplacement delimiter true t
    else (readReplacement delimiter false t).map fun r => (.char c::r.1,r.2)

/-- Read a command. -/
def readCommand : Text → Option Command
  | 's'::delimiter::t =>
    (readPattern delimiter t).bind fun p =>
      (readReplacement delimiter false p.2).bind fun r =>
        if p.1≠[] ∧ r.2=['g'] then some ⟨p.1,r.1⟩ else none
  | _ => none

/-- Read a script. -/
def readScript : List Text → Option (List Command)
  | [] => some []
  | t::ts => (readCommand t).bind fun c => (readScript ts).map fun cs => c::cs

/-- What a part of a replacement stands for. -/
def Piece.text (pattern : Text) : Piece → Text
  | char c => [c]
  | matched => pattern
  | escaped c => [c]

/-- The pattern and the text that replaces it. -/
def Command.binding (c : Command) : Binding Char Char :=
  (c.pattern,c.replacement.flatMap (Piece.text c.pattern))

/-- Run a script on the lines of a text. -/
def runSed (sed : Sed) (script input : List Text) : Option (List Text) :=
  match readScript script with
  | some commands => some (input.map (substituteEach id (commands.map Command.binding)))
  | none => sed script input

/-- The command that puts a value in place of a pattern. -/
def substituteCommand (c : Binding Char Char) : Text := 's':: '|'::c.1++ '|'::c.2++['|','g']

/-- The command is read with the characters of the value as they are. -/
def ReadsLiterally (c : Binding Char Char) : Prop :=
  readCommand (substituteCommand c)=some ⟨c.1,c.2.map .char⟩

/-- What the ampersand and a character that is itself are read as. -/
def plainPiece (c : Char) : Piece := if c= '&' then .matched else .char c

/-- A value in which the ampersand is the only special character, as the text
that sed puts in. -/
def matchedValue (c : Binding Char Char) : Text := c.2.flatMap fun x => if x= '&' then c.1 else [x]

variable {delimiter : Char}

/-- A literal pattern is read up to its delimiter. -/
theorem readPattern_append {p : Text} (t : Text) (hd : isLiteral delimiter=false)
    (h : p.all isLiteral=true) : readPattern delimiter (p++delimiter::t)=some (p,t) := by
  induction p with
  | nil => exact if_pos rfl
  | cons c p ih =>
    obtain ⟨hl,hp⟩ := Bool.and_eq_true_iff.mp h
    have hc : c≠delimiter := by
      rintro rfl
      rw [hd] at hl
      exact Bool.false_ne_true hl
    rw [List.cons_append,readPattern,if_neg hc,if_pos hl,ih hp]
    rfl

/-- Behind a backslash no character is read as it is. -/
theorem escaped_ne (v t : Text) {c : Char} {ps : List Piece} {rest : Text} :
    readReplacement delimiter true (v++delimiter::t)≠some (.char c::ps,rest) := by
  intro h
  cases hv : v++delimiter::t with
  | nil =>
    rw [hv] at h
    cases h
  | cons d w =>
    rw [hv,readReplacement] at h
    split at h
    · obtain ⟨r,_,hr⟩ := Option.map_eq_some_iff.mp h
      cases (Prod.mk.inj hr).1
    · cases h

/-- A value is read as it is exactly when it has no special character. -/
theorem readReplacement_append_iff {v : Text} (t : Text) :
    readReplacement delimiter false (v++delimiter::t)=some (v.map .char,t) ↔
      ∀ c∈v,c∉special delimiter := by
  induction v with
  | nil =>
    have hnil : readReplacement delimiter false (delimiter::t)=some ([],t) := if_pos rfl
    exact ⟨fun _ c hc => absurd hc List.not_mem_nil,fun _ => hnil⟩
  | cons c v ih =>
    rw [List.cons_append,readReplacement,List.forall_mem_cons]
    by_cases hd : c=delimiter
    · subst hd
      simp only [if_true,Option.some.injEq,Prod.mk.injEq,List.map_cons,reduceCtorEq,false_and,
        special,List.mem_cons,true_or,not_true_eq_false]
    by_cases hn : c= '\n'
    · subst hn
      simp only [hd,if_false,if_true,reduceCtorEq,special,List.mem_cons,true_or,or_true,
        not_true_eq_false,false_and]
    by_cases ha : c= '&'
    · subst ha
      simp only [hd,hn,if_false,if_true,special,List.mem_cons,true_or,or_true,not_true_eq_false,
        false_and,iff_false]
      intro h
      obtain ⟨r,_,hr⟩ := Option.map_eq_some_iff.mp h
      cases (Prod.mk.inj hr).1
    by_cases hb : c= '\\'
    · subst hb
      simp only [hd,hn,ha,if_false,if_true,special,List.mem_cons,true_or,or_true,
        not_true_eq_false,false_and,iff_false]
      exact escaped_ne v t
    · have hc : c∉special delimiter := by
        simp only [special,List.mem_cons,hd,hn,ha,hb,List.not_mem_nil,or_self,not_false_eq_true]
      rw [if_neg hd,if_neg hn,if_neg ha,if_neg hb,←ih]
      constructor
      · intro h
        obtain ⟨r,hr,he⟩ := Option.map_eq_some_iff.mp h
        obtain ⟨hchars,ht⟩ := Prod.mk.inj he
        refine ⟨hc,?_⟩
        rw [hr,←ht,←(List.cons.inj hchars).2]
      · rintro ⟨_,h⟩
        rw [h]
        rfl

/-- A value in which the ampersand is the only special character is read up to
the delimiter. -/
theorem readReplacement_plain {v : Text} (t : Text) (hd : delimiter≠ '&')
    (h : ∀ c∈v,c∈special delimiter → c= '&') :
    readReplacement delimiter false (v++delimiter::t)=some (v.map plainPiece,t) := by
  induction v with
  | nil => exact if_pos rfl
  | cons c v ih =>
    obtain ⟨hc,hv⟩ := List.forall_mem_cons.mp h
    rw [List.cons_append,readReplacement,ih hv]
    by_cases ha : c= '&'
    · subst ha
      rw [if_neg hd.symm,if_neg (by decide),if_pos rfl,List.map_cons,plainPiece,if_pos rfl]
      rfl
    · have hspecial : c∉special delimiter := fun hs => ha (hc hs)
      simp only [special,List.mem_cons,List.not_mem_nil,or_false,not_or] at hspecial
      rw [if_neg hspecial.1,if_neg hspecial.2.1,if_neg ha,if_neg hspecial.2.2.2,List.map_cons,
        plainPiece,if_neg ha]
      rfl

/-- A command is read when its pattern and its replacement are. -/
theorem readCommand_substitute {c : Binding Char Char} (h : c.1.all isLiteral=true) :
    readCommand (substituteCommand c)=
      (readReplacement '|' false (c.2++['|','g'])).bind fun r =>
        if c.1≠[] ∧ r.2=['g'] then some ⟨c.1,r.1⟩ else none := by
  have htext : substituteCommand c= 's':: '|'::(c.1++ '|'::(c.2++['|','g'])) := by
    rw [substituteCommand,List.cons_append,List.cons_append,List.append_assoc]
    rfl
  rw [htext,readCommand,readPattern_append _ rfl h]
  rfl

/-- A command reads its value literally exactly when the value has no special
character. -/
theorem readsLiterally_iff {c : Binding Char Char} (hne : c.1≠[])
    (h : c.1.all isLiteral=true) : ReadsLiterally c ↔ ∀ x∈c.2,x∉special '|' := by
  rw [←readReplacement_append_iff ['g'],ReadsLiterally,readCommand_substitute h]
  constructor
  · intro hr
    obtain ⟨r,hr,hif⟩ := Option.bind_eq_some_iff.mp hr
    simp only [Option.ite_none_right_eq_some,Option.some.injEq,Command.mk.injEq,true_and] at hif
    obtain ⟨⟨_,hg⟩,hpieces⟩ := hif
    rw [hr,←hg,←hpieces]
  · intro hr
    rw [hr,Option.bind_some,if_pos ⟨hne,rfl⟩]

/-- A script is run as its commands are read. -/
theorem runSed_of_reads (sed : Sed) (input : List Text) {cs : List (Binding Char Char)}
    {pieces : Binding Char Char → List Piece} {value : Binding Char Char → Text}
    (h : ∀ c∈cs,readCommand (substituteCommand c)=some ⟨c.1,pieces c⟩)
    (hvalue : ∀ c∈cs,(pieces c).flatMap (Piece.text c.1)=value c) :
    runSed sed (cs.map substituteCommand) input=
      some (input.map (substituteEach id (cs.map fun c => (c.1,value c)))) := by
  have hread : ∀ cs : List (Binding Char Char),
      (∀ c∈cs,readCommand (substituteCommand c)=some ⟨c.1,pieces c⟩) →
      readScript (cs.map substituteCommand)=some (cs.map fun c => ⟨c.1,pieces c⟩) := by
    intro cs h
    induction cs with
    | nil => rfl
    | cons c cs ih =>
      obtain ⟨hc,hcs⟩ := List.forall_mem_cons.mp h
      rw [List.map_cons,readScript,hc,Option.bind_some,ih hcs]
      rfl
  have hbinding : cs.map (Command.binding∘fun c => ⟨c.1,pieces c⟩)=
      cs.map fun c => (c.1,value c) :=
    List.map_congr_left fun c hc => congrArg (Prod.mk c.1) (hvalue c hc)
  rw [runSed,hread cs h]
  dsimp only
  rw [List.map_map,hbinding]

/-- A script whose values are read literally substitutes them. -/
theorem runSed_of_readsLiterally (sed : Sed) (input : List Text) {cs : List (Binding Char Char)}
    (h : ∀ c∈cs,ReadsLiterally c) :
    runSed sed (cs.map substituteCommand) input=some (input.map (substituteEach id cs)) := by
  have htext : ∀ c∈cs,(c.2.map Piece.char).flatMap (Piece.text c.1)=c.2 := by
    intro c _
    rw [List.flatMap_map]
    exact List.flatMap_singleton' c.2
  have hsame : cs.map (fun c => (c.1,c.2))=cs := List.map_id cs
  rw [runSed_of_reads sed input h htext,hsame]

/-- A script whose values have no special character but the ampersand puts the
placeholder in for it. -/
theorem runSed_of_ampersands (sed : Sed) (input : List Text) {cs : List (Binding Char Char)}
    (hne : ∀ c∈cs,c.1≠[]) (hliteral : ∀ c∈cs,c.1.all isLiteral=true)
    (h : ∀ c∈cs,∀ x∈c.2,x∈special '|' → x= '&') :
    runSed sed (cs.map substituteCommand) input=
      some (input.map (substituteEach id (cs.map fun c => (c.1,matchedValue c)))) := by
  have hread : ∀ c∈cs,readCommand (substituteCommand c)=some ⟨c.1,c.2.map plainPiece⟩ := by
    intro c hc
    rw [readCommand_substitute (hliteral c hc),readReplacement_plain ['g'] (by decide) (h c hc),
      Option.bind_some,if_pos ⟨hne c hc,rfl⟩]
  refine runSed_of_reads sed input hread fun c _ => ?_
  rw [List.flatMap_map,matchedValue]
  refine congrArg (fun f => c.2.flatMap f) (funext fun x => ?_)
  rw [plainPiece]
  split <;> rfl

end Greenhouse.SedScript
