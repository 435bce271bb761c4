import Greenhouse.IniText

/-!
# Line edits of files with sections

An editor that knows of no sections replaces the lines that begin with a key,
or puts a pair behind the lines that begin with a header. Each edit concerns
the pairs of one key: those that begin their lines get the value, and a new
pair counts when its section has no other.
-/

namespace Greenhouse.IniEditing

open ShellText IniText

/-- The line matches the key at its start, white space and an equals sign. -/
def keyLine (key l : Text) : Bool :=
  key.isPrefixOf l && decide (((l.drop key.length).dropWhile isSpace).head? =some '=')

/-- The line matches the header at its start. -/
def headerLine (name l : Text) : Bool := ('['::name++[']']).isPrefixOf l

/-- Replace a line that the key matches. -/
def replaced (key value l : Text) : Text := if keyLine key l=true then pairLine key value else l

/-- A line with a pair behind it when the header matches. -/
def followed (name key value l : Text) : List Text :=
  if headerLine name l=true then [l,pairLine key value] else [l]

/-- Some line of the file matches the key. -/
def hasKey (key t : Text) : Bool := (lines t).any (keyLine key)

/-- Some line of the file matches the header. -/
def hasHeader (name t : Text) : Bool := (lines t).any (headerLine name)

/-- Replace all lines that the key matches. -/
def substituted (key value t : Text) : Text := edited (fun l => [replaced key value l]) t

/-- Put a pair behind all lines that the header matches. -/
def appended (name key value t : Text) : Text := edited (followed name key value) t

/-- A pair of the key at the start of its line gets the value. -/
def replacePair (key value : Text) (p : Pair) : Pair :=
  if p.key=key ∧ p.atStart=true then ⟨key,value,true⟩ else p

/-- Change the pair of an item. -/
def mapPair (f : Pair → Pair) : Item → Item
  | .pair p => .pair (f p)
  | i => i

/-- An item with a pair behind it when it is the header at the start of its line. -/
def followedItem (name : Text) (p : Pair) (i : Item) : List Item :=
  if i=.header name true then [i,.pair p] else [i]

/-- An item that is no pair of the key. -/
def foreign (key : Text) : Item → Bool
  | .pair p => decide (p.key≠key)
  | _ => true

/-- An edit that concerns only pairs of the key. -/
def EditsOnly (key t t' : Text) : Prop :=
  (items t').filter (foreign key)=(items t).filter (foreign key)

/-- Every line that the key matches is the written pair. -/
def Settled (key value t : Text) : Prop := ∀ l∈lines t,keyLine key l=true → l=pairLine key value

/-- A pair is the only one of its key and stands in this section. -/
def aloneIn (home : Option Text) (p : Pair) : Option Text → List Item → Bool
  | _,[] => false
  | now,i::is =>
    if i=.pair p then decide (now=home) && is.all (foreign p.key)
    else foreign p.key i && aloneIn home p (sectionBehind now i) is

/-- A pair is the only one of its key in the file. -/
def StandsAlone (home : Option Text) (p : Pair) (t : Text) : Prop :=
  aloneIn home p none (items t)=true

instance (home : Option Text) (p : Pair) (t : Text) : Decidable (StandsAlone home p t) :=
  inferInstanceAs (Decidable (_=true))

section Lines

variable {key value name l : Text}

/-- A line that the key matches. -/
theorem keyLine_iff : keyLine key l=true ↔
    ∃ s r,s.all isSpace=true ∧ l=key++(s++ '='::r) := by
  rw [keyLine,Bool.and_eq_true,List.isPrefixOf_iff_prefix,decide_eq_true_iff]
  constructor
  · rintro ⟨⟨u,rfl⟩,hu⟩
    rw [List.drop_left] at hu
    obtain ⟨r,hr⟩ := List.head?_eq_some_iff.mp hu
    refine ⟨u.takeWhile isSpace,r,List.all_takeWhile,?_⟩
    rw [←hr,List.takeWhile_append_dropWhile]
  · rintro ⟨s,r,hs,rfl⟩
    refine ⟨List.prefix_append _ _,?_⟩
    rw [List.drop_left,List.dropWhile_append_of_pos (List.all_eq_true.mp hs),
      List.dropWhile_cons_of_neg (by decide)]
    rfl

/-- The key matches a line exactly when the line is a pair of the key at its
start. -/
theorem keyLine_iff_item (h : IsName key) :
    keyLine key l=true ↔ ∃ v,item l=.pair ⟨key,v,true⟩ := by
  rw [keyLine_iff]
  constructor
  · rintro ⟨s,r,hs,rfl⟩
    exact ⟨_,item_of_name h hs r⟩
  · rintro ⟨v,hv⟩
    exact exists_of_item_eq_pair hv rfl

/-- The header matches a line that can be read exactly when the line is the
header at its start. -/
theorem headerLine_iff_item (h : ']'∉name) (hl : item l≠.malformed) :
    headerLine name l=true ↔ item l=.header name true := by
  rw [headerLine,List.isPrefixOf_iff_prefix]
  constructor
  · rintro ⟨r,rfl⟩
    have hstart : ('['::(name++ ']'::r)).dropWhile isSpace= '['::(name++ ']'::r) :=
      List.dropWhile_cons_of_neg (by decide)
    have hline : '['::name++[']']++r= '['::(name++ ']'::r) := by
      rw [List.append_assoc]
      rfl
    rw [hline] at hl ⊢
    rw [item,startsAtOnce,hstart] at hl ⊢
    dsimp only at hl ⊢
    rw [if_neg (by decide),if_pos rfl] at hl ⊢
    split at hl
    · rename_i hheader
      rw [if_pos hheader,upTo_append r h,decide_eq_true rfl]
    · exact absurd rfl hl
  · intro hitem
    rw [item] at hitem
    split at hitem
    · cases hitem
    rename_i c t ht
    split at hitem
    · cases hitem
    split at hitem
    · rename_i hc
      split at hitem
      · rename_i hclosed
        obtain ⟨hname,hstart⟩ := Item.header.inj hitem
        have hline : l= '['::t := by
          rw [←hc,←ht]
          exact (of_decide_eq_true hstart).symm
        have hsplit := upTo_behind hclosed.1
        rw [hname] at hsplit
        refine ⟨behind ']' t,?_⟩
        rw [hline,List.append_assoc]
        exact congrArg (List.cons '[') hsplit.symm
      · cases hitem
    split at hitem <;> cases hitem

/-- Replacing changes the pair of a line only. -/
theorem item_replaced (h : IsName key) (hv : ∀ c∈value,isSpace c=false) :
    item (replaced key value l)=mapPair (replacePair key value) (item l) := by
  by_cases hkey : keyLine key l=true
  · obtain ⟨v,hitem⟩ := (keyLine_iff_item h).mp hkey
    rw [replaced,if_pos hkey,hitem,item_pairLine h hv,mapPair,replacePair,if_pos ⟨rfl,rfl⟩]
  · rw [replaced,if_neg hkey]
    cases hitem : item l with
    | pair p =>
      rw [mapPair,replacePair,if_neg]
      rintro ⟨rfl,hstart⟩
      refine hkey ((keyLine_iff_item h).mpr ⟨p.value,hitem.trans ?_⟩)
      rw [←hstart]
    | nothing | header | malformed => rfl

/-- A written pair follows a header at the start of its line. -/
theorem map_item_followed (h : IsName key) (hv : ∀ c∈value,isSpace c=false) (hname : ']'∉name)
    (hl : item l≠.malformed) :
    (followed name key value l).map item=followedItem name ⟨key,value,true⟩ (item l) := by
  have hiff := headerLine_iff_item hname hl
  rw [followed,followedItem]
  by_cases hheader : headerLine name l=true
  · rw [if_pos hheader,if_pos (hiff.mp hheader),List.map_cons,List.map_singleton,item_pairLine h hv]
  · rw [if_neg hheader,if_neg fun hitem => hheader (hiff.mpr hitem),List.map_singleton]

end Lines

section Reading

variable {s : Option Text} {key name k : Text} {now : Option Text} {is : List Item}

/-- Changing all pairs changes the last one. -/
theorem lastPair_mapPair {g : Pair → Pair} (hg : ∀ p,(g p).key=p.key) :
    lastPair s key now (is.map (mapPair g))=(lastPair s key now is).map g := by
  induction is generalizing now with
  | nil => rfl
  | cons i is ih =>
    have hsection : sectionBehind now (mapPair g i)=sectionBehind now i := by
      cases i with
      | nothing | header | pair | malformed => rfl
    have hpair : pairOf s key now (mapPair g i)=(pairOf s key now i).map g := by
      cases i with
      | pair p =>
        rw [mapPair,pairOf,pairOf,hg]
        split
        · rfl
        · rfl
      | nothing | header | malformed => rfl
    rw [List.map_cons,lastPair,lastPair,hsection,hpair,ih,Option.map_or]

/-- Pairs of another key do not count. -/
theorem lastPair_filter (hk : k≠key) :
    lastPair s k now (is.filter (foreign key))=lastPair s k now is := by
  induction is generalizing now with
  | nil => rfl
  | cons i is ih =>
    rw [List.filter_cons]
    split
    · rw [lastPair,lastPair,ih]
    · rename_i hforeign
      cases i with
      | pair p =>
        have hp : p.key=key := not_not.mp fun hne => hforeign (decide_eq_true hne)
        have hnone : pairOf s k now (.pair p)=none := if_neg fun h => hk (h.2.symm.trans hp)
        rw [lastPair,hnone,Option.or_none]
        exact ih
      | nothing | header | malformed => exact absurd rfl hforeign

/-- Without its pairs a key has no value. -/
theorem lastPair_of_foreign (h : is.all (foreign key)=true) : lastPair s key now is=none := by
  cases hp : lastPair s key now is with
  | none => rfl
  | some p =>
    have hforeign := List.all_eq_true.mp h _ (mem_of_lastPair hp)
    exact absurd (key_of_lastPair hp) (of_decide_eq_true hforeign)

/-- The only pair of a key counts in the section in which it stands. -/
theorem lastPair_of_alone {home : Option Text} {p : Pair} (h : aloneIn home p now is=true) :
    lastPair s p.key now is=if s=home then some p else none := by
  induction is generalizing now with
  | nil => cases h
  | cons i is ih =>
    rw [aloneIn] at h
    split at h
    · rename_i hi
      obtain ⟨hnow,hrest⟩ := Bool.and_eq_true_iff.mp h
      rw [lastPair,hi,lastPair_of_foreign hrest,Option.none_or,pairOf,of_decide_eq_true hnow]
      simp only [and_true,eq_comm]
    · obtain ⟨hforeign,hrest⟩ := Bool.and_eq_true_iff.mp h
      have hnone : pairOf s p.key now i=none := by
        cases i with
        | pair q => exact if_neg fun hand => of_decide_eq_true hforeign hand.2
        | nothing | header | malformed => rfl
      rw [lastPair,hnone,Option.or_none]
      exact ih hrest

/-- A pair behind the only header of a section counts when the section has no
other pair of the key. -/
theorem lastPair_followed (p : Pair) (hone : is.countP (isHeader name)=1) :
    lastPair s k none (is.flatMap (followedItem name p))=(lastPair s k none is).or
      (if s=some name ∧ k=p.key ∧ .header name true∈is then some p else none) := by
  obtain ⟨left,i,right,rfl,hi,hleft,hright⟩ := exists_header hone
  have hne : ∀ x,isHeader name x=false → x≠.header name true := fun x hx he =>
    of_decide_eq_false hx (Or.inl he)
  have hstay : ∀ part : List Item,(∀ x∈part,isHeader name x=false) →
      part.flatMap (followedItem name p)=part := by
    intro part hpart
    have hone : ∀ x∈part,followedItem name p x=[x] := fun x hx => if_neg (hne x (hpart x hx))
    rw [List.flatMap_congr hone]
    exact List.flatMap_singleton' _
  have hmem : .header name true∈left++i::right ↔ i=.header name true := by
    rw [List.mem_append,List.mem_cons,eq_comm]
    refine ⟨fun h => ?_,fun h => Or.inr (Or.inl h)⟩
    rcases h with h|h|h
    · exact absurd rfl (hne _ (hleft _ h))
    · exact h
    · exact absurd rfl (hne _ (hright _ h))
  rw [List.flatMap_append,List.flatMap_cons,hstay left hleft,hstay right hright]
  simp only [hmem]
  by_cases hheader : i=.header name true
  · have hwithout : ∀ now,lastPair s k now (.header name true::right)=
        lastPair s k (some name) right := fun _ => Option.or_none
    have hwith : ∀ now,lastPair s k now (.header name true::.pair p::right)=
        (lastPair s k (some name) right).or (if some name=s ∧ p.key=k then some p else none) :=
      fun _ => Option.or_none
    rw [followedItem,if_pos hheader,hheader,lastPair_append left (_++right),
      lastPair_append left (_::right),hwithout,List.cons_append,List.singleton_append,hwith]
    by_cases htarget : s=some name ∧ k=p.key
    · rw [if_pos ⟨htarget.1.symm,htarget.2.symm⟩,if_pos ⟨htarget.1,htarget.2,rfl⟩,htarget.1,
        lastPair_eq_none (Option.some_ne_none name).symm hleft,Option.or_none,Option.or_none]
    · rw [if_neg fun h => htarget ⟨h.1.symm,h.2.symm⟩,if_neg fun h => htarget ⟨h.1,h.2.1⟩,
        Option.or_none,Option.or_none]
  · rw [followedItem,if_neg hheader,if_neg fun h => hheader h.2.2,Option.or_none]
    rfl

end Reading

section Files

variable {s : Option Text} {key value name k t t' : Text}

/-- The lines of a file whose matching lines are replaced. -/
theorem lines_substituted (h : IsName key) (hv : ∀ c∈value,isSpace c=false) (t : Text) :
    lines (substituted key value t)=(lines t).map (replaced key value) := by
  have hcases : ∀ l,replaced key value l=pairLine key value ∨ replaced key value l=l := by
    intro l
    rw [replaced]
    split
    · exact Or.inl rfl
    · exact Or.inr rfl
  rw [substituted,lines_edited,List.map_eq_flatMap]
  · intro l hl m hm
    rw [List.mem_singleton.mp hm]
    rcases hcases l with he|he
    · rw [he]
      exact newline_notMem_pairLine h hv
    · rwa [he]
  · intro l hl m hm
    rw [List.mem_singleton.mp hm]
    rcases hcases l with he|he
    · rw [he]
      exact pairLine_ne_nil
    · rwa [he]

/-- A line with what follows it. -/
theorem mem_followed {l m : Text} (h : m∈followed name key value l) :
    m=l ∨ m=pairLine key value := by
  rw [followed] at h
  split at h
  · exact (List.mem_cons.mp h).imp_right List.mem_singleton.mp
  · exact Or.inl (List.mem_singleton.mp h)

/-- The lines of a file with a pair behind its matching headers. -/
theorem lines_appended (h : IsName key) (hv : ∀ c∈value,isSpace c=false) (name t : Text) :
    lines (appended name key value t)=(lines t).flatMap (followed name key value) := by
  rw [appended,lines_edited]
  · intro l hl m hm
    rcases mem_followed hm with rfl|rfl
    · exact hl
    · exact newline_notMem_pairLine h hv
  · intro l hl m hm
    rcases mem_followed hm with rfl|rfl
    · exact hl
    · exact pairLine_ne_nil

/-- Replacing changes the pairs of a file. -/
theorem items_substituted (h : IsName key) (hv : ∀ c∈value,isSpace c=false) (t : Text) :
    items (substituted key value t)=(items t).map (mapPair (replacePair key value)) := by
  rw [items,lines_substituted h hv,items,List.map_map,List.map_map]
  exact List.map_congr_left fun l _ => item_replaced h hv

/-- Appending puts a pair behind the headers of a file. -/
theorem items_appended (h : IsName key) (hv : ∀ c∈value,isSpace c=false) (hname : ']'∉name)
    (hini : IsIni t) :
    items (appended name key value t)=(items t).flatMap (followedItem name ⟨key,value,true⟩) := by
  have hread : ∀ l∈lines t,item l≠.malformed := fun l hl he => hini (he ▸ List.mem_map_of_mem hl)
  rw [items,lines_appended h hv,items,List.map_flatMap,List.flatMap_map]
  exact List.flatMap_congr fun l hl => map_item_followed h hv hname (hread l hl)

/-- A file has a key at the start of a line. -/
theorem hasKey_iff (h : IsName key) : hasKey key t=true ↔ ∃ v,.pair ⟨key,v,true⟩∈items t := by
  rw [hasKey,List.any_eq_true]
  constructor
  · rintro ⟨l,hl,hkey⟩
    obtain ⟨v,hv⟩ := (keyLine_iff_item h).mp hkey
    exact ⟨v,List.mem_map.mpr ⟨l,hl,hv⟩⟩
  · rintro ⟨v,hv⟩
    obtain ⟨l,hl,hitem⟩ := List.mem_map.mp hv
    exact ⟨l,hl,(keyLine_iff_item h).mpr ⟨v,hitem⟩⟩

/-- A file has a header at the start of a line. -/
theorem hasHeader_iff (hname : ']'∉name) (hini : IsIni t) :
    hasHeader name t=true ↔ .header name true∈items t := by
  have hread : ∀ l∈lines t,item l≠.malformed := fun l hl he => hini (he ▸ List.mem_map_of_mem hl)
  rw [hasHeader,List.any_eq_true,items,List.mem_map]
  exact exists_congr fun l => and_congr_right fun hl => headerLine_iff_item hname (hread l hl)

/-- Changing the values of a key concerns the pairs of the key. -/
theorem editsOnly_mapPair (h : items t'=(items t).map (mapPair (replacePair key value))) :
    EditsOnly key t t' := by
  have hforeign : foreign key∘mapPair (replacePair key value)=foreign key := by
    funext i
    cases i with
    | pair p =>
      dsimp only [Function.comp_apply,mapPair,foreign]
      rw [replacePair]
      split
      · rename_i hp
        rw [hp.1]
      · rfl
    | nothing | header | malformed => rfl
  rw [EditsOnly,h,List.filter_map,hforeign]
  refine (List.map_congr_left fun i hi => ?_).trans (List.map_id _)
  have hi' := List.of_mem_filter hi
  cases i with
  | pair p => exact congrArg Item.pair (if_neg fun hp => of_decide_eq_true hi' hp.1)
  | nothing | header | malformed => rfl

/-- Replacing concerns the pairs of its key. -/
theorem editsOnly_substituted (h : IsName key) (hv : ∀ c∈value,isSpace c=false) (t : Text) :
    EditsOnly key t (substituted key value t) :=
  editsOnly_mapPair (items_substituted h hv t)

/-- Appending concerns the pairs of its key. -/
theorem editsOnly_appended (h : IsName key) (hv : ∀ c∈value,isSpace c=false) (hname : ']'∉name)
    (hini : IsIni t) : EditsOnly key t (appended name key value t) := by
  rw [EditsOnly,items_appended h hv hname hini]
  have hpair : foreign key (.pair ⟨key,value,true⟩)=false := decide_eq_false (not_not_intro rfl)
  induction items t with
  | nil => rfl
  | cons i is ih =>
    have hone : (followedItem name ⟨key,value,true⟩ i).filter (foreign key)=[i].filter (foreign key) := by
      rw [followedItem]
      split
      · rw [List.filter_cons,List.filter_cons,List.filter_cons,hpair]
        rfl
      · rfl
    rw [List.flatMap_cons,List.filter_append,hone,ih,←List.filter_append]
    rfl

namespace EditsOnly

/-- Items other than pairs of the key are kept. -/
theorem mem_iff (h : EditsOnly key t t') {i : Item} (hi : foreign key i=true) :
    i∈items t' ↔ i∈items t := by
  have hfilter : ∀ is : List Item,i∈is.filter (foreign key) ↔ i∈is := fun is =>
    List.mem_filter.trans (and_iff_left hi)
  rw [←hfilter (items t'),h,hfilter]

/-- The file can be read afterwards if it could be read before. -/
theorem isIni (h : EditsOnly key t t') (hini : IsIni t) : IsIni t' := fun hm =>
  hini ((h.mem_iff rfl).mp hm)

/-- The headers are kept. -/
theorem headers_eq (h : EditsOnly key t t') (name : Text) : headers name t'=headers name t := by
  have hcount : ∀ is : List Item,
      (is.filter (foreign key)).countP (isHeader name)=is.countP (isHeader name) := by
    intro is
    rw [List.countP_filter]
    refine List.countP_congr fun i _ => ?_
    cases i with
    | pair p => exact iff_of_false (fun hi => by cases hi) (fun hi => by cases hi)
    | nothing | header | malformed => exact Bool.and_eq_true_iff.trans (and_iff_left rfl)
  rw [headers,headers,←hcount (items t'),h,hcount]

/-- Headers at the start of a line are kept. -/
theorem hasHeader_eq (h : EditsOnly key t t') (hname : ']'∉name) (hini : IsIni t) :
    hasHeader name t'=hasHeader name t := by
  rw [Bool.eq_iff_iff,hasHeader_iff hname hini,hasHeader_iff hname (h.isIni hini)]
  exact h.mem_iff rfl

/-- Other keys are found as before. -/
theorem hasKey_eq (h : EditsOnly key t t') (hk : IsName k) (hne : k≠key) :
    hasKey k t'=hasKey k t := by
  rw [Bool.eq_iff_iff,hasKey_iff hk,hasKey_iff hk]
  exact exists_congr fun v => h.mem_iff (decide_eq_true hne)

/-- The pairs of other keys are kept. -/
theorem pairAt_eq (h : EditsOnly key t t') (s : Option Text) (hne : k≠key) :
    pairAt t' s k=pairAt t s k := by
  rw [pairAt,pairAt,←lastPair_filter hne,h,lastPair_filter hne]

end EditsOnly

/-- A pair that stands alone is found in its section only. -/
theorem StandsAlone.pairAt_eq {home : Option Text} {p : Pair} (h : StandsAlone home p t)
    (s : Option Text) : pairAt t s p.key=if s=home then some p else none :=
  lastPair_of_alone h

/-- The pairs of the key after changing its values. -/
theorem pairAt_mapPair (h : items t'=(items t).map (mapPair (replacePair key value)))
    (s : Option Text) : pairAt t' s key=(pairAt t s key).map (replacePair key value) := by
  rw [pairAt,h]
  refine lastPair_mapPair fun p => ?_
  rw [replacePair]
  split
  · rename_i hp
    exact hp.1.symm
  · rfl

/-- The pairs of the key after replacing. -/
theorem pairAt_substituted (h : IsName key) (hv : ∀ c∈value,isSpace c=false) (s : Option Text)
    (t : Text) : pairAt (substituted key value t) s key=(pairAt t s key).map (replacePair key value) :=
  pairAt_mapPair (items_substituted h hv t) s

/-- The pairs of the key after appending. -/
theorem pairAt_appended (h : IsName key) (hv : ∀ c∈value,isSpace c=false) (hname : ']'∉name)
    (hini : IsIni t) (hone : headers name t=1) (s : Option Text) :
    pairAt (appended name key value t) s key=(pairAt t s key).or
      (if s=some name ∧ hasHeader name t=true then some ⟨key,value,true⟩ else none) := by
  rw [pairAt,items_appended h hv hname hini,lastPair_followed _ hone]
  simp only [true_and,hasHeader_iff hname hini]
  rfl

/-- Replacing settles its key. -/
theorem settled_substituted (h : IsName key) (hv : ∀ c∈value,isSpace c=false) (t : Text) :
    Settled key value (substituted key value t) := by
  intro l hl hkey
  rw [lines_substituted h hv] at hl
  obtain ⟨m,_,rfl⟩ := List.mem_map.mp hl
  rw [replaced] at hkey ⊢
  split at hkey
  · rename_i hm
    exact if_pos hm
  · rename_i hm
    exact absurd hkey hm

/-- Replacing keeps the matching lines. -/
theorem hasKey_substituted (h : IsName key) (hv : ∀ c∈value,isSpace c=false) (t : Text) :
    hasKey key (substituted key value t)=hasKey key t := by
  have hmatch : keyLine key (pairLine key value)=true :=
    (keyLine_iff_item h).mpr ⟨value,item_pairLine h hv⟩
  have hline : keyLine key∘replaced key value=keyLine key := by
    funext l
    rw [Function.comp_apply,replaced]
    split
    · rename_i hkey
      rw [hmatch,hkey]
    · rfl
  rw [hasKey,lines_substituted h hv,List.any_map,hline]
  rfl

/-- A settled file is not changed by replacing. -/
theorem Settled.substituted_eq (h : Settled key value t) : substituted key value t=t := by
  refine edited_eq_self fun l hl => congrArg (fun m => [m]) ?_
  rw [replaced]
  split
  · rename_i hkey
    exact (h l hl hkey).symm
  · rfl

/-- Without the header nothing is appended. -/
theorem appended_eq (h : hasHeader name t=false) : appended name key value t=t :=
  edited_eq_self fun l hl => if_neg (List.any_eq_false.mp h l hl)

end Files

end Greenhouse.IniEditing
