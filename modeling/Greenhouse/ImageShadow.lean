import Greenhouse.EventLog
import Greenhouse.IniText
import Greenhouse.LineEditing
import Mathlib.Data.List.Forall2
import Mathlib.Data.List.Lookmap

/-!
# The password of root in an image

Two commands that finish the root file system write the password of root to
/etc/shadow: one locks root when it has none, the other sets the hash that the
build was given. The second one searches the text and not its lines, so it ends
in the line of root when that has a second colon.
-/

namespace Greenhouse.ImageShadow

open ShellText IniText LineEditing EventLog

/-- The user whose password is written. -/
def root : Text := "root".toList

/-- The line is the entry of a user. -/
def isEntry (user l : Text) : Bool := (user++[':']).isPrefixOf l

/-- An entry with its password and the fields behind it. -/
def entry (user password rest : Text) : Text := user++ ':'::(password++ ':'::rest)

/-- The entry of a user, which is the first one. -/
def entryOf (user t : Text) : Option Text := (lines t).find? (isEntry user)

/-- sed -i 's%^root::%root:*:%' in a line. -/
def zapped (l : Text) : Text :=
  if "root::".toList.isPrefixOf l then "root:*:".toList++l.drop 6 else l

/-- Lock root when it has no password. -/
def zapEmptyRootPassword (shadow : Option Text) : Option Text :=
  shadow.map (edited fun l => [zapped l])

/-- Newlines as a text file is read; a carriage return ends a line, alone or with
the newline that follows. -/
def universalNewlines : Bool → Text → Text
  | _,[] => []
  | afterReturn,c::t =>
    if c= '\r' then '\n'::universalNewlines true t
    else if c= '\n' ∧ afterReturn=true then universalNewlines false t
    else c::universalNewlines false t

/-- Replace the first match of ^root:[^:]*: where ^ is the start of a line. -/
def substituteRoot (fill : Text → Text) : Bool → Text → Text
  | _,[] => []
  | lineStart,c::t =>
    if lineStart=true ∧ isEntry root (c::t)=true ∧ ':'∈(c::t).drop 5 then
      fill (root++ ':'::(upTo ':' ((c::t).drop 5)++[':']))++behind ':' ((c::t).drop 5)
    else c::substituteRoot fill (decide (c= '\n')) t

/-- What a replacement makes of a match. Python reads the escapes of one with
backslashes, and may reject it. -/
def replacement (python : Text → Option (Text → Text)) (t : Text) : Option (Text → Text) :=
  if '\\'∈t then python t else some fun _ => t

/-- Set the password of root, unless there is no hash or no shadow file. The
build fails when the hash is no replacement. -/
def setRootPasswordHash (python : Text → Option (Text → Text)) (hash : Text)
    (shadow : Option Text) : Option (Option Text) :=
  if hash=[] then some shadow
  else
    match shadow with
    | none => some none
    | some t => (replacement python (root++ ':'::(hash++[':']))).map fun fill =>
      some (substituteRoot fill true (universalNewlines false t))

/-- The commands that write the password of root. -/
inductive Command
  | zapEmptyRootPassword
  | setRootPasswordHash (hash : Text)
  deriving DecidableEq

/-- Run a command. -/
def Command.run (python : Text → Option (Text → Text)) :
    Command → Option Text → Option (Option Text)
  | .zapEmptyRootPassword,shadow => some (ImageShadow.zapEmptyRootPassword shadow)
  | .setRootPasswordHash hash,shadow => ImageShadow.setRootPasswordHash python hash shadow

/-- Run one command after the other. -/
def runAll (python : Text → Option (Text → Text)) (cs : List Command) (shadow : Option Text) :
    Option (Option Text) := cs.foldlM (fun s c => c.run python s) shadow

/-- A text that may be a hash in an entry: it has no colon, no backslash and no
end of a line. -/
def IsHash (t : Text) : Prop := ∀ c∈t,c∉[':','\\','\n','\r']

/-- A line has a second colon when it is an entry of root. -/
def HasPassword (l : Text) : Prop := ∃ password rest,':'∉password ∧ l=entry root password rest

/-- The hash that a command sets. -/
def Command.hash : Command → Option Text
  | .zapEmptyRootPassword => none
  | .setRootPasswordHash hash => if hash=[] then none else some hash

/-- The password that commands make of a password: the last hash that is set, or
a lock when there was none. -/
def rootPassword (cs : List Command) (password : Text) : Text :=
  (lastWrite (fun c : Command => c.hash.map some) none cs).getD
    (if .zapEmptyRootPassword∈cs ∧ password=[] then ['*'] else password)

/-- An entry of root with another password. -/
def withPassword (f : Text → Text) (l : Text) : Text :=
  entry root (f (upTo ':' (l.drop 5))) (behind ':' (l.drop 5))

/-- What a command makes of a password. -/
def Command.password : Command → Text → Text
  | .zapEmptyRootPassword,password => if password=[] then ['*'] else password
  | .setRootPasswordHash hash,password => if hash=[] then password else hash

/-- A line that is no entry of root stays, and none becomes one. -/
structure Kept (l m : Text) : Prop where
  entry : isEntry root m=isEntry root l
  other : isEntry root l=false → m=l
  ends : ∀ c,c= '\r' ∨ c= '\n' → c∉l → c∉m

/-- The lines of a text are kept, and the entry of root has another password. -/
structure Effect (f : Text → Text) (t t' : Text) : Prop where
  lines : List.Forall₂ Kept (lines t) (lines t')
  ending : unended t'=unended t
  first : entryOf root t'=(entryOf root t).map (withPassword f)

/-- A shadow file without carriage returns whose entry of root has a password. -/
structure WellFormed (t : Text) : Prop where
  returns : ∀ l∈lines t,'\r'∉l
  password : ∀ l,entryOf root t=some l → HasPassword l

section Entries

variable {user l password rest : Text} {ls ms : List Text} {f g : Text → Text}

/-- An entry is one of its user. -/
theorem isEntry_entry (user password rest : Text) : isEntry user (entry user password rest)=true :=
  List.isPrefixOf_iff_prefix.mpr ⟨password++ ':'::rest,by
    rw [List.append_assoc,List.singleton_append,entry]⟩

/-- A line is the entry of one user at most. -/
theorem isEntry_unique {name : Text} (hu : ':'∉user) (hn : ':'∉name) (h : isEntry user l=true)
    (h' : isEntry name l=true) : user=name := by
  obtain ⟨s,hs⟩ := List.isPrefixOf_iff_prefix.mp h
  obtain ⟨t,ht⟩ := List.isPrefixOf_iff_prefix.mp h'
  rw [List.append_assoc,List.singleton_append] at hs ht
  have hupTo := upTo_append s hu
  rw [hs,←ht,upTo_append t hn] at hupTo
  exact hupTo.symm

/-- The name of root has no colon. -/
theorem colon_notMem_root : ':'∉root := by decide

/-- Another password in an entry. -/
theorem withPassword_entry (f : Text → Text) (rest : Text) (h : ':'∉password) :
    withPassword f (entry root password rest)=entry root (f password) rest := by
  have hdrop : (entry root password rest).drop 5=password++ ':'::rest := rfl
  rw [withPassword,hdrop,upTo_append rest h,behind_append rest h]

/-- One password after the other. -/
theorem withPassword_withPassword (hf : ∀ p,':'∉p → ':'∉f p) (h : HasPassword l) :
    withPassword g (withPassword f l)=withPassword (fun p => g (f p)) l := by
  obtain ⟨password,rest,hp,rfl⟩ := h
  rw [withPassword_entry f rest hp,withPassword_entry g rest (hf password hp),
    withPassword_entry _ rest hp]

/-- A line is kept as it is. -/
theorem Kept.refl (l : Text) : Kept l l := ⟨rfl,fun _ => rfl,fun _ _ => id⟩

/-- A line is kept by one change after the other. -/
theorem Kept.trans {l m n : Text} (h : Kept l m) (h' : Kept m n) : Kept l n where
  entry := h'.entry.trans h.entry
  other hl := (h'.other (h.entry.trans hl)).trans (h.other hl)
  ends c hc hl := h'.ends c hc (h.ends c hc hl)

/-- Lines are kept by one change after the other. -/
theorem keptLines_trans {ns : List Text} (h : List.Forall₂ Kept ls ms)
    (h' : List.Forall₂ Kept ms ns) : List.Forall₂ Kept ls ns := by
  induction h generalizing ns with
  | nil => exact h'
  | cons hl _ ih =>
    cases h' with
    | cons hm hrest => exact List.Forall₂.cons (hl.trans hm) (ih hrest)

/-- Kept lines have no carriage returns when there were none. -/
theorem returns_of_kept (h : List.Forall₂ Kept ls ms) (hls : ∀ l∈ls,'\r'∉l) : ∀ m∈ms,'\r'∉m := by
  induction h with
  | nil => exact hls
  | cons hl _ ih =>
    obtain ⟨hhead,htail⟩ := List.forall_mem_cons.mp hls
    exact List.forall_mem_cons.mpr ⟨hl.ends _ (Or.inl rfl) hhead,ih htail⟩

/-- Lines without an entry of root stay. -/
theorem eq_of_kept (h : List.Forall₂ Kept ls ms) (hother : ∀ l∈ls,isEntry root l=false) :
    ms=ls := by
  induction h with
  | nil => rfl
  | cons hl _ ih =>
    obtain ⟨hhead,htail⟩ := List.forall_mem_cons.mp hother
    rw [hl.other hhead,ih htail]

/-- The entries of other users are kept. -/
theorem find?_of_kept (hu : ':'∉user) (hne : user≠root) (h : List.Forall₂ Kept ls ms) :
    ms.find? (isEntry user)=ls.find? (isEntry user) := by
  have hother : ∀ l,isEntry root l=true → isEntry user l=false := fun l hl =>
    eq_false_of_ne_true fun hm => hne (isEntry_unique hu colon_notMem_root hm hl)
  induction h with
  | nil => rfl
  | @cons l m ls ms hlm _ ih =>
    rw [List.find?_cons,List.find?_cons,ih]
    cases hl : isEntry root l with
    | true => rw [hother l hl,hother m (hlm.entry.trans hl)]
    | false => rw [hlm.other hl]

end Entries

section Effects

variable {t t' t'' : Text} {f g : Text → Text}

/-- A file without a command. -/
theorem Effect.refl (h : WellFormed t) : Effect id t t where
  lines := List.forall₂_same.mpr fun l _ => Kept.refl l
  ending := rfl
  first := by
    cases hl : entryOf root t with
    | none => rfl
    | some l =>
      obtain ⟨password,rest,hp,rfl⟩ := h.password l hl
      rw [Option.map_some,withPassword_entry id rest hp]
      rfl

/-- One effect after the other. -/
theorem Effect.trans (hf : ∀ p,':'∉p → ':'∉f p) (ht : WellFormed t) (h : Effect f t t')
    (h' : Effect g t' t'') : Effect (fun p => g (f p)) t t'' where
  lines := keptLines_trans h.lines h'.lines
  ending := h'.ending.trans h.ending
  first := by
    rw [h'.first,h.first]
    cases hl : entryOf root t with
    | none => rfl
    | some l => exact congrArg some (withPassword_withPassword hf (ht.password l hl))

/-- A file stays well formed. -/
theorem Effect.wellFormed (hf : ∀ p,':'∉p → ':'∉f p) (ht : WellFormed t) (h : Effect f t t') :
    WellFormed t' where
  returns := returns_of_kept h.lines ht.returns
  password l hl := by
    rw [h.first] at hl
    obtain ⟨m,hm,rfl⟩ := Option.map_eq_some_iff.mp hl
    obtain ⟨password,rest,hp,rfl⟩ := ht.password m hm
    exact ⟨f password,rest,hf password hp,withPassword_entry f rest hp⟩

/-- Without an entry of root nothing happens. -/
theorem Effect.eq_of_none (h : Effect f t t') (hnone : entryOf root t=none) : t'=t := by
  have hother : ∀ l∈ShellText.lines t,isEntry root l=false := fun l hl =>
    eq_false_of_ne_true (List.find?_eq_none.mp hnone l hl)
  exact text_ext (eq_of_kept h.lines hother) h.ending

end Effects

section Commands

variable {t l hash : Text} (python : Text → Option (Text → Text))

/-- A line that is zapped is kept. -/
theorem kept_zapped (l : Text) : Kept l (zapped l) := by
  rw [zapped]
  split
  · rename_i hzap
    obtain ⟨rest,rfl⟩ := List.isPrefixOf_iff_prefix.mp hzap
    have hentry : isEntry root ("root::".toList++rest)=true := isEntry_entry root [] rest
    refine ⟨(isEntry_entry root ['*'] rest).trans hentry.symm,fun hno => ?_,fun c hc hl hm => ?_⟩
    · exact absurd (hno.symm.trans hentry) Bool.false_ne_true
    · rcases List.mem_append.mp hm with hm|hm
      · rcases hc with rfl|rfl <;> exact absurd hm (by decide)
      · exact hl (List.mem_append_right _ hm)
  · exact Kept.refl l

/-- Zapping an entry of root. -/
theorem zapped_of_hasPassword (h : HasPassword l) :
    zapped l=withPassword Command.zapEmptyRootPassword.password l := by
  obtain ⟨password,rest,hp,rfl⟩ := h
  rw [withPassword_entry _ rest hp,Command.password]
  cases password with
  | nil => rfl
  | cons c password =>
    have hc : c≠ ':' := fun he => hp (he ▸ List.mem_cons_self)
    have hno : ¬"root::".toList.isPrefixOf (entry root (c::password) rest)=true := by
      intro hzap
      obtain ⟨s,hs⟩ := List.isPrefixOf_iff_prefix.mp hzap
      have hfive := congrArg (fun x : Text => x.drop 5) hs
      exact hc (List.cons.inj hfive).1.symm
    rw [zapped,if_neg hno,if_neg (List.cons_ne_nil c password)]

/-- Zapping has its effect. -/
theorem effect_zap (ht : WellFormed t) :
    Effect Command.zapEmptyRootPassword.password t (edited (fun l => [zapped l]) t) := by
  have hkeeps : KeepsLines (fun l => [zapped l]) t := by
    intro l hl
    refine ⟨List.cons_ne_nil _ _,fun m hm => ?_⟩
    rw [List.mem_singleton.mp hm]
    refine ⟨(kept_zapped l).ends _ (Or.inr rfl) (newline_notMem_of_mem_lines hl),fun hne => ?_⟩
    rw [zapped]
    split
    · exact List.append_ne_nil_of_left_ne_nil (by decide) _
    · exact hne
  obtain ⟨hlines,hend⟩ := edited_map_spec hkeeps
  refine ⟨?_,hend,?_⟩
  · rw [hlines,List.forall₂_map_right_iff]
    exact List.forall₂_same.mpr fun l _ => kept_zapped l
  · rw [entryOf,hlines,List.find?_map]
    have hsame : isEntry root∘zapped=isEntry root := funext fun l => (kept_zapped l).entry
    rw [hsame,←entryOf]
    cases hl : entryOf root t with
    | none => rfl
    | some l => exact congrArg some (zapped_of_hasPassword (ht.password l hl))

/-- A text with a carriage return has a line with one. -/
theorem notMem_of_lines {c : Char} (hc : c≠ '\n') (h : ∀ l∈lines t,c∉l) : c∉t := by
  have hunlines : c∉unlines (lines t) := by
    intro hm
    obtain ⟨l,hl,hcl⟩ := List.mem_flatMap.mp hm
    rcases List.mem_append.mp hcl with hcl|hcl
    · exact h l hl hcl
    · exact hc (List.mem_singleton.mp hcl)
  rw [unlines_lines] at hunlines
  split at hunlines
  · exact fun hm => hunlines (List.mem_append_left _ hm)
  · exact hunlines

/-- A text without carriage returns is read as it is. -/
theorem universalNewlines_of_notMem (h : '\r'∉t) : universalNewlines false t=t := by
  induction t with
  | nil => rfl
  | cons c t ih =>
    obtain ⟨hc,ht⟩ := not_or.mp fun hm => h (List.mem_cons.mpr hm)
    rw [universalNewlines,if_neg (Ne.symm hc),if_neg fun hand => Bool.false_ne_true hand.2,ih ht]

variable (fill : Text → Text)

/-- Behind the start of a line nothing is replaced up to the next line. -/
theorem substituteRoot_false (h : '\n'∉l) :
    substituteRoot fill false l=l ∧ ∀ s,
      substituteRoot fill false (l++ '\n'::s)=l++ '\n'::substituteRoot fill true s := by
  induction l with
  | nil =>
    refine ⟨rfl,fun s => ?_⟩
    rw [List.nil_append,substituteRoot,if_neg fun hand => Bool.false_ne_true hand.1]
    rfl
  | cons c l ih =>
    obtain ⟨hc,hl⟩ := not_or.mp fun hm => h (List.mem_cons.mpr hm)
    obtain ⟨hlast,hline⟩ := ih hl
    have hmid : decide (c= '\n')=false := decide_eq_false (Ne.symm hc)
    constructor
    · rw [substituteRoot,if_neg fun hand => Bool.false_ne_true hand.1,hmid,hlast]
    · intro s
      rw [List.cons_append,substituteRoot,if_neg fun hand => Bool.false_ne_true hand.1,hmid,hline]
      rfl

/-- A line in front of a text is an entry when it is one. -/
theorem isEntry_append (l s : Text) : isEntry root (l++ '\n'::s)=isEntry root l := by
  refine Bool.eq_iff_iff.mpr ⟨fun he => ?_,fun he => ?_⟩
  · have hp : root++[':']<+:l++ '\n'::s := List.isPrefixOf_iff_prefix.mp he
    refine List.isPrefixOf_iff_prefix.mpr ?_
    rcases Nat.lt_or_ge l.length (root++[':']).length with hlt|hge
    · have hline : l++['\n']<+:l++ '\n'::s := ⟨s,by rw [List.append_assoc,List.singleton_append]⟩
      have hlen : (l++['\n']).length≤(root++[':']).length := by
        rw [List.length_append,List.length_singleton]
        omega
      have hnew := (List.prefix_of_prefix_length_le hline hp hlen).subset
        (List.mem_append_right l (List.mem_singleton_self '\n'))
      exact absurd hnew (by decide)
    · exact List.prefix_of_prefix_length_le hp (List.prefix_append l _) hge
  · have hp : root++[':']<+:l := List.isPrefixOf_iff_prefix.mp he
    exact List.isPrefixOf_iff_prefix.mpr (hp.trans (List.prefix_append l _))

/-- A line that is no entry of root stays. -/
theorem substituteRoot_of_other (h : '\n'∉l) (ho : isEntry root l=false) :
    substituteRoot fill true l=l ∧ ∀ s,
      substituteRoot fill true (l++ '\n'::s)=l++ '\n'::substituteRoot fill true s := by
  have hno : ∀ s,isEntry root (l++ '\n'::s)=false := fun s => (isEntry_append l s).trans ho
  cases l with
  | nil =>
    refine ⟨rfl,fun s => ?_⟩
    have hstart := hno s
    rw [List.nil_append] at hstart ⊢
    rw [substituteRoot,hstart,if_neg fun hand => Bool.false_ne_true hand.2.1]
    rfl
  | cons c l =>
    obtain ⟨hc,hl⟩ := not_or.mp fun hm => h (List.mem_cons.mpr hm)
    obtain ⟨hlast,hline⟩ := substituteRoot_false fill hl
    have hmid : decide (c= '\n')=false := decide_eq_false (Ne.symm hc)
    constructor
    · rw [substituteRoot,ho,if_neg fun hand => Bool.false_ne_true hand.2.1,hmid,hlast]
    · intro s
      have hstart := hno s
      rw [List.cons_append] at hstart ⊢
      rw [substituteRoot,hstart,if_neg fun hand => Bool.false_ne_true hand.2.1,hmid,hline]
      rfl

/-- The entry of root is replaced, and the text behind it stays. -/
theorem substituteRoot_entry {password : Text} (rest s : Text) (hp : ':'∉password) :
    substituteRoot fill true (entry root password rest++s)=
      fill (root++ ':'::(password++[':']))++(rest++s) := by
  have hentry : isEntry root (entry root password (rest++s))=true := isEntry_entry root password _
  have hdrop : (entry root password (rest++s)).drop 5=password++ ':'::(rest++s) := rfl
  have happend : entry root password rest++s=entry root password (rest++s) := by
    rw [entry,entry,List.append_assoc,List.cons_append,List.append_assoc,List.cons_append]
  have hmem : ':'∈password++ ':'::(rest++s) :=
    List.mem_append_right _ List.mem_cons_self
  rw [happend]
  cases he : entry root password (rest++s) with
  | nil => exact absurd he (by rw [entry]; exact List.append_ne_nil_of_left_ne_nil (by decide) _)
  | cons c t =>
    rw [he] at hentry hdrop
    rw [substituteRoot,hdrop,if_pos ⟨rfl,hentry,hmem⟩,upTo_append _ hp,behind_append _ hp]

/-- The entry of root with a hash. -/
def hashed (hash l : Text) : Option Text :=
  if isEntry root l=true then some (withPassword (fun _ => hash) l) else none

/-- The first entry of root gets the hash. -/
theorem lookmap_of_entry (hl : isEntry root l=true) (hash : Text) (ls : List Text) :
    (l::ls).lookmap (hashed hash)=withPassword (fun _ => hash) l::ls :=
  List.lookmap_cons_some (hashed hash) ls (if_pos hl)

/-- Other lines are passed over. -/
theorem lookmap_of_other (hl : isEntry root l=false) (hash : Text) (ls : List Text) :
    (l::ls).lookmap (hashed hash)=l::ls.lookmap (hashed hash) :=
  List.lookmap_cons_none (hashed hash) ls (if_neg (hl ▸ Bool.false_ne_true))

/-- An entry with a hash is kept. -/
theorem kept_withPassword (hh : IsHash hash) (hl : HasPassword l) :
    Kept l (withPassword (fun _ => hash) l) := by
  obtain ⟨password,rest,hp,rfl⟩ := hl
  have hentry := isEntry_entry root password rest
  rw [withPassword_entry _ rest hp]
  refine ⟨(isEntry_entry root hash rest).trans hentry.symm,
    fun hno => absurd (hno.symm.trans hentry) Bool.false_ne_true,fun c hc hl hm => ?_⟩
  rcases List.mem_append.mp hm with hm|hm
  · rcases hc with rfl|rfl <;> exact absurd hm (by decide)
  rcases List.mem_cons.mp hm with rfl|hm
  · rcases hc with hc|hc <;> exact absurd hc (by decide)
  rcases List.mem_append.mp hm with hm|hm
  · have hhash := hh c hm
    rcases hc with rfl|rfl <;> exact hhash (by decide)
  rcases List.mem_cons.mp hm with rfl|hm
  · rcases hc with hc|hc <;> exact absurd hc (by decide)
  · exact hl (List.mem_append_right _ (List.mem_cons_of_mem _ (List.mem_append_right _
      (List.mem_cons_of_mem _ hm))))

/-- The lines with a hash. -/
theorem lookmap_hashed (hh : IsHash hash) {ls : List Text}
    (h : ∀ l,ls.find? (isEntry root)=some l → HasPassword l) :
    List.Forall₂ Kept ls (ls.lookmap (hashed hash)) ∧
      (ls.lookmap (hashed hash)).find? (isEntry root)=
        (ls.find? (isEntry root)).map (withPassword fun _ => hash) := by
  induction ls with
  | nil => exact ⟨List.Forall₂.nil,rfl⟩
  | cons l ls ih =>
    cases hl : isEntry root l with
    | true =>
      have hpassword : HasPassword l := h l (List.find?_cons_of_pos hl)
      have hkept := kept_withPassword hh hpassword
      rw [lookmap_of_entry hl,List.find?_cons_of_pos hl,
        List.find?_cons_of_pos (hkept.entry.trans hl)]
      exact ⟨List.Forall₂.cons hkept (List.forall₂_same.mpr fun m _ => Kept.refl m),rfl⟩
    | false =>
      have hno : ¬isEntry root l=true := hl ▸ Bool.false_ne_true
      rw [List.find?_cons_of_neg hno] at h
      obtain ⟨hkept,hfirst⟩ := ih h
      rw [lookmap_of_other hl,List.find?_cons_of_neg hno,
        List.find?_cons_of_neg hno]
      exact ⟨List.Forall₂.cons (Kept.refl l) hkept,hfirst⟩

/-- The hash is put into the entry of root, and the text behind it stays. -/
theorem substituteRoot_hashed (hash s : Text) (h : HasPassword l) :
    substituteRoot (fun _ => root++ ':'::(hash++[':'])) true (l++s)=
      withPassword (fun _ => hash) l++s := by
  obtain ⟨password,rest,hp,rfl⟩ := h
  rw [substituteRoot_entry _ rest s hp,withPassword_entry _ rest hp,entry]
  simp only [List.append_assoc,List.cons_append,List.nil_append]

/-- An entry is not empty. -/
theorem withPassword_ne_nil (f : Text → Text) (l : Text) : withPassword f l≠[] :=
  List.append_ne_nil_of_left_ne_nil (List.cons_ne_nil _ _) _

/-- The lines and the end of a text with a hash. -/
theorem substituteRoot_spec (hh : IsHash hash) (h : ∀ l,entryOf root t=some l → HasPassword l) :
    lines (substituteRoot (fun _ => root++ ':'::(hash++[':'])) true t)=
        (lines t).lookmap (hashed hash) ∧
      unended (substituteRoot (fun _ => root++ ':'::(hash++[':'])) true t)=unended t := by
  induction t using induction_on_lines with
  | nil => exact ⟨rfl,rfl⟩
  | last l hne hl =>
    rw [entryOf,lines_of_notMem hl hne] at h
    rw [lines_of_notMem hl hne]
    cases he : isEntry root l with
    | true =>
      have hpassword : HasPassword l := h l (List.find?_cons_of_pos he)
      have hnew : '\n'∉withPassword (fun _ => hash) l :=
        (kept_withPassword hh hpassword).ends _ (Or.inr rfl) hl
      have hnew' := withPassword_ne_nil (fun _ => hash) l
      have hline := substituteRoot_hashed hash [] hpassword
      rw [List.append_nil,List.append_nil] at hline
      rw [lookmap_of_entry he,hline,lines_of_notMem hnew hnew']
      exact ⟨rfl,(unended_append [] hnew' hnew).trans (unended_append [] hne hl).symm⟩
    | false =>
      rw [(substituteRoot_of_other _ hl he).1,lines_of_notMem hl hne,lookmap_of_other he]
      exact ⟨rfl,rfl⟩
  | line l t hl ih =>
    rw [entryOf,lines_append_cons t hl] at h
    rw [lines_append_cons t hl,unended_append_cons]
    cases he : isEntry root l with
    | true =>
      have hpassword : HasPassword l := h l (List.find?_cons_of_pos he)
      have hnew : '\n'∉withPassword (fun _ => hash) l :=
        (kept_withPassword hh hpassword).ends _ (Or.inr rfl) hl
      rw [lookmap_of_entry he,substituteRoot_hashed hash _ hpassword,lines_append_cons t hnew,
        unended_append_cons]
      exact ⟨rfl,rfl⟩
    | false =>
      rw [List.find?_cons_of_neg (he ▸ Bool.false_ne_true)] at h
      obtain ⟨hlines,hend⟩ := ih h
      rw [(substituteRoot_of_other _ hl he).2,lines_append_cons _ hl,unended_append_cons,hlines,
        lookmap_of_other he]
      exact ⟨rfl,hend⟩

/-- A hash that is set has its effect. -/
theorem run_setRootPasswordHash (hh : IsHash hash) (ht : WellFormed t) :
    ∃ t',setRootPasswordHash python hash (some t)=some (some t') ∧
      Effect (Command.setRootPasswordHash hash).password t t' := by
  by_cases hne : hash=[]
  · have hid : (Command.setRootPasswordHash hash).password=id := funext fun p => if_pos hne
    rw [setRootPasswordHash,if_pos hne,hid]
    exact ⟨t,rfl,Effect.refl ht⟩
  · have hset : (Command.setRootPasswordHash hash).password=fun _ => hash :=
      funext fun p => if_neg hne
    have hplain : '\\'∉root++ ':'::(hash++[':']) := by
      intro hm
      rcases List.mem_append.mp hm with hm|hm
      · exact absurd hm (by decide)
      rcases List.mem_cons.mp hm with hm|hm
      · exact absurd hm (by decide)
      rcases List.mem_append.mp hm with hm|hm
      · exact hh _ hm (by decide)
      · exact absurd hm (by decide)
    have hread := universalNewlines_of_notMem (notMem_of_lines (by decide) ht.returns)
    obtain ⟨hlines,hend⟩ := substituteRoot_spec hh ht.password
    obtain ⟨hkept,hfirst⟩ := lookmap_hashed hh ht.password
    rw [setRootPasswordHash,if_neg hne,hset]
    rw [replacement,if_neg hplain,Option.map_some,hread]
    refine ⟨_,rfl,?_,hend,?_⟩
    · rw [hlines]
      exact hkept
    · rw [entryOf,hlines]
      exact hfirst

end Commands

section Runs

variable {t : Text} {cs : List Command} {c : Command} (python : Text → Option (Text → Text))

/-- The last hash is not empty. -/
theorem lastHash_ne {hash : Text} (cs : List Command)
    (h : lastWrite (fun c : Command => c.hash.map some) none cs=some hash) : hash≠[] := by
  rcases lastWrite_mem (fun c : Command => c.hash.map some) none cs with hnone|⟨c,_,hc⟩
  · rw [h] at hnone
    cases hnone
  · rw [h] at hc
    obtain ⟨x,hx,hsome⟩ := Option.map_eq_some_iff.mp hc
    obtain rfl := Option.some.inj hsome
    cases c with
    | zapEmptyRootPassword => cases hx
    | setRootPasswordHash y =>
      rw [Command.hash] at hx
      split at hx
      · cases hx
      · rename_i hne
        exact Option.some.inj hx ▸ hne

/-- The password after one more command. -/
theorem rootPassword_concat (cs : List Command) (c : Command) (password : Text) :
    rootPassword (cs++[c]) password=c.password (rootPassword cs password) := by
  rw [rootPassword,lastWrite_concat,rootPassword]
  cases c with
  | zapEmptyRootPassword =>
    have hmem : Command.zapEmptyRootPassword∈cs++[.zapEmptyRootPassword] :=
      List.mem_append_right _ (List.mem_singleton_self _)
    rw [Command.hash,Option.map_none,Option.getD_none,Command.password]
    cases hlast : lastWrite (fun c : Command => c.hash.map some) none cs with
    | none =>
      rw [Option.getD_none,Option.getD_none]
      by_cases hp : password=[]
      · by_cases hz : .zapEmptyRootPassword∈cs
        · simp only [hmem,hz,hp,and_self,if_true,List.cons_ne_nil,if_false]
        · simp only [hmem,hz,hp,and_self,false_and,if_true,if_false]
      · simp only [hp,and_false,if_false]
    | some hash => rw [Option.getD_some,Option.getD_some,if_neg (lastHash_ne cs hlast)]
  | setRootPasswordHash hash =>
    have hmem : Command.zapEmptyRootPassword∈cs++[.setRootPasswordHash hash] ↔
        .zapEmptyRootPassword∈cs := by
      rw [List.mem_append,List.mem_singleton]
      exact or_iff_left fun he => Command.noConfusion he
    rw [Command.hash,Command.password]
    by_cases hne : hash=[]
    · rw [if_pos hne,if_pos hne,Option.map_none,Option.getD_none]
      simp only [hmem]
    · rw [if_neg hne,if_neg hne]
      rfl

/-- A password stays without colons. -/
theorem colon_notMem_password (hc : ∀ h,c=.setRootPasswordHash h → IsHash h) {password : Text}
    (h : ':'∉password) : ':'∉c.password password := by
  cases c with
  | zapEmptyRootPassword =>
    rw [Command.password]
    split
    · decide
    · exact h
  | setRootPasswordHash hash =>
    rw [Command.password]
    split
    · exact h
    · exact fun hm => hc hash rfl _ hm (by decide)

/-- Without the file nothing happens. -/
theorem runAll_none (cs : List Command) :
    runAll python cs none=some none := by
  induction cs with
  | nil => rfl
  | cons c cs ih =>
    have hstep : c.run python none=some none := by
      cases c with
      | zapEmptyRootPassword => rfl
      | setRootPasswordHash hash =>
        rw [Command.run,ImageShadow.setRootPasswordHash]
        split
        · rfl
        · rfl
    rw [runAll,List.foldlM_cons,hstep]
    exact ih

/-- A command succeeds and has its effect. -/
theorem run_spec (hc : ∀ h,c=.setRootPasswordHash h → IsHash h) (ht : WellFormed t) :
    ∃ t',c.run python (some t)=some (some t') ∧ Effect c.password t t' := by
  cases c with
  | zapEmptyRootPassword => exact ⟨_,rfl,effect_zap ht⟩
  | setRootPasswordHash hash => exact run_setRootPasswordHash python (hc hash rfl) ht

/-- Commands succeed and have their effects. -/
theorem runAll_spec (hcs : ∀ h,.setRootPasswordHash h∈cs → IsHash h) (ht : WellFormed t) :
    ∃ t',runAll python cs (some t)=some (some t') ∧ Effect (rootPassword cs) t t' ∧
      ∀ p,':'∉p → ':'∉rootPassword cs p := by
  induction cs using List.reverseRecOn with
  | nil => exact ⟨t,rfl,Effect.refl ht,fun p hp => hp⟩
  | append_singleton cs c ih =>
    obtain ⟨t',hrun,heffect,hcolon⟩ := ih fun h hm => hcs h (List.mem_append_left _ hm)
    have hc : ∀ h,c=.setRootPasswordHash h → IsHash h := fun h he =>
      hcs h (List.mem_append_right _ (List.mem_singleton.mpr he.symm))
    obtain ⟨t'',hrun',heffect'⟩ := run_spec python hc (heffect.wellFormed hcolon ht)
    have hpassword : rootPassword (cs++[c])=fun p => c.password (rootPassword cs p) :=
      funext (rootPassword_concat cs c)
    refine ⟨t'',?_,?_,fun p hp => ?_⟩
    · rw [runAll] at hrun ⊢
      rw [List.foldlM_append,hrun]
      exact (bind_pure _).trans hrun'
    · rw [hpassword]
      exact Effect.trans hcolon ht heffect heffect'
    · rw [rootPassword_concat]
      exact colon_notMem_password hc (hcolon p hp)

/-- After any commands in any order the lines that are no entry of root are as
they were, and so are the entries of all other users. Root keeps the fields behind
its password, and has the last hash that has been set; without one it is locked
when it had no password and has been zapped. Without an entry of root, or without
the file, nothing happens. -/
theorem passwords_of_commands (hcs : ∀ h,.setRootPasswordHash h∈cs → IsHash h)
    (ht : WellFormed t) : runAll python cs none=some none ∧
      ∃ t',runAll python cs (some t)=some (some t') ∧ WellFormed t' ∧
        List.Forall₂ (fun l l' => isEntry root l=false → l'=l) (lines t) (lines t') ∧
        (∀ user,':'∉user → user≠root → entryOf user t'=entryOf user t) ∧
        (∀ password rest,':'∉password → entryOf root t=some (entry root password rest) →
          entryOf root t'=some (entry root (rootPassword cs password) rest)) ∧
        (entryOf root t=none → t'=t) := by
  obtain ⟨t',hrun,heffect,hcolon⟩ := runAll_spec python hcs ht
  refine ⟨?_,t',hrun,heffect.wellFormed hcolon ht,heffect.lines.imp fun _ _ h => h.other,?_,?_,?_⟩
  · exact runAll_none python cs
  · intro user hu hne
    exact find?_of_kept hu hne heffect.lines
  · intro password rest hp hentry
    rw [heffect.first,hentry,Option.map_some,withPassword_entry _ rest hp]
  · intro hnone
    exact heffect.eq_of_none hnone

/-- A shadow file where root has no password. -/
def sampleShadow : Text := "daemon:*:1:\nroot::1:\npi:x:2:".toList

/-- An image with a hash. -/
theorem passwords_of_commands_hash : ∃ t',
    runAll (fun _ => none) [.zapEmptyRootPassword,.setRootPasswordHash "$6$ab".toList]
      (some sampleShadow)=some (some t') ∧ entryOf root t'=some "root:$6$ab:1:".toList ∧
      entryOf "pi".toList t'=some "pi:x:2:".toList := by
  have hentry : entryOf root sampleShadow=some (entry root [] "1:".toList) := by decide
  have hall : "$6$ab".toList.all (fun c => decide (c∉[':','\\','\n','\r']))=true := by decide
  have hhash : IsHash "$6$ab".toList := fun c hc =>
    of_decide_eq_true (List.all_eq_true.mp hall c hc)
  have ht : WellFormed sampleShadow := by
    refine ⟨by decide,fun l hl => ⟨[],"1:".toList,List.not_mem_nil,?_⟩⟩
    exact Option.some.inj (hl.symm.trans hentry)
  have hcs : ∀ h,.setRootPasswordHash h∈[Command.zapEmptyRootPassword,
      .setRootPasswordHash "$6$ab".toList] → IsHash h := by
    intro h hm
    rcases List.mem_cons.mp hm with he|hm
    · cases he
    · cases List.mem_singleton.mp hm
      exact hhash
  obtain ⟨_,t',hrun,_,_,husers,hroot,_⟩ := passwords_of_commands (fun _ => none) hcs ht
  refine ⟨t',hrun,(hroot [] "1:".toList List.not_mem_nil hentry).trans (by decide),?_⟩
  exact (husers "pi".toList (by decide) (by decide)).trans (by decide)

end Runs

end Greenhouse.ImageShadow
