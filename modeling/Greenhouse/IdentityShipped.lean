import Greenhouse.IdentityBoots

/-!
# The identity in the template that the image ships

The recipe of the identity script puts the server and the token into
config.conf.template and the script puts in the identity. With the template the
hawkBit client reads from config.conf, after any boots, the server and the token
of the build and the identity of the last boot, whatever was in the file before.
-/

namespace Greenhouse.IdentityShipped

open ShellText IniText IniEditing PlaceholderSubstitution SedScript TemplateRendering
  IdentityPatch IdentityBoots

/-- A line of a template that gets a value. -/
structure Slot where
  home : Text
  key : Text
  placeholder : Text
  deriving DecidableEq

def serverSlot : Slot := ⟨client,"hawkbit_server".toList,"@@HAWKBIT_SERVER@@".toList⟩
def tokenSlot : Slot := ⟨client,"gateway_token".toList,"@@GATEWAY_TOKEN@@".toList⟩

/-- A place of the identity as a line. -/
def placeSlot (x : Place) : Slot := ⟨x.home,x.key,x.placeholder⟩

/-- The lines of config.conf.template that get a value. -/
def slots : List Slot := [serverSlot,tokenSlot]++places.map placeSlot

/-- The line in the template. -/
def Slot.line (y : Slot) : Text := pairLine y.key y.placeholder

/-- The line gets the value, other lines are kept. -/
def Slot.filled (y : Slot) (value l : Text) : Text :=
  if l=y.line then pairLine y.key value else l

/-- The line is that of the slot, or has neither its placeholder nor its key. -/
def Ready (y : Slot) (l : Text) : Prop := l=y.line ∨ ¬y.placeholder<:+:l ∧ keyLine y.key l=false

instance (y : Slot) (l : Text) : Decidable (Ready y l) :=
  inferInstanceAs (Decidable (_ ∨ _))

/-- The template can be read and has one header of each section, each of its
lines is ready for each slot, and each slot is the only pair of its key. -/
def Laid (sections : List Text) (ys : List Slot) (template : List Text) : Prop :=
  (∀ l∈template,'\n'∉l ∧ ∀ y∈ys,Ready y l) ∧
    (∀ y∈ys,StandsAlone (some y.home) ⟨y.key,y.placeholder,true⟩ (unlines template)) ∧
    IsIni (unlines template) ∧ ∀ name∈sections,headers name (unlines template)=1

instance (sections : List Text) (ys : List Slot) (template : List Text) :
    Decidable (Laid sections ys template) :=
  inferInstanceAs (Decidable (_ ∧ _ ∧ _ ∧ _))

/-- config.conf.template as the recipe installs it. -/
def shippedTemplate (sed : Sed) (serverUrl gatewayToken : BuildValue) : Option Text :=
  (installedTemplate sed serverUrl gatewayToken).map unlines

/-- The values of the build are read as they are and contain no placeholder that
is substituted after them. -/
structure Deployable (serverUrl gatewayToken : BuildValue) : Prop where
  noSpecial : NoSpecial (installBindings serverUrl gatewayToken)
  server : ∀ y∈slots,y≠serverSlot → ¬y.placeholder<:+:serverUrl.text
  token : ∀ y∈slots,y≠serverSlot → y≠tokenSlot → ¬y.placeholder<:+:gatewayToken.text

section Slots

variable {y z : Slot} {l v : Text}

/-- Keys are names, and placeholders are seen where they stand and nowhere else. -/
theorem checked_slots : ∀ y∈slots,IsName y.key ∧ '\n'∉y.key++[' ','=',' '] ∧
    (y.placeholder≠[] ∧ ' '∉y.placeholder ∧ ¬y.placeholder<:+:y.key++[' ','=',' ']) ∧
    ∀ z∈slots,z≠y →
      z.key≠y.key ∧ ' '∉z.placeholder ∧ ¬z.placeholder<:+:y.key++[' ','='] := by decide +kernel

/-- The keys of the slots are names. -/
theorem isName_of_mem_slots (hy : y∈slots) : IsName y.key := (checked_slots y hy).1

/-- Slots have different keys, and their placeholders do not reach into another
key. -/
theorem apart_slots (hy : y∈slots) (hz : z∈slots) (hne : z≠y) :
    z.key≠y.key ∧ ' '∉z.placeholder ∧ ¬z.placeholder<:+:y.key++[' ','='] :=
  (checked_slots y hy).2.2.2 z hz hne

set_option maxRecDepth 4000 in
theorem laid_configTemplate : Laid [client,device] slots configTemplate := by
  unfold slots configTemplate places serverSlot tokenSlot client device targetKey serialKey macKey
  repeat rewrite [List.map_cons]
  repeat rewrite [String.toList_ofList]
  decide +kernel

/-- Each line of the template is ready for each slot. -/
theorem ready_configTemplate (hy : y∈slots) (hl : l∈configTemplate) : Ready y l :=
  (laid_configTemplate.1 l hl).2 y hy

/-- A pattern without an element is found on one side of it. -/
theorem infix_append_cons {α : Type*} {p left right : List α} {c : α} (hc : c∉p)
    (h : p<:+:left++c::right) : p<:+:left ∨ p<:+:right := by
  have hhead : ∀ {q : List α},q<+:c::right → c∉q → q=[] := by
    intro q hq hcq
    cases q with
    | nil => rfl
    | cons d q =>
      obtain ⟨rfl,_⟩ := List.cons_prefix_cons.mp hq
      exact absurd List.mem_cons_self hcq
  rcases List.infix_append_iff.mp h with hl|hr|⟨q,r,rfl,hq,hr⟩
  · exact Or.inl hl
  · rcases List.infix_cons_iff.mp hr with hp|hi
    · rw [hhead hp hc]
      exact Or.inl List.nil_infix
    · exact Or.inr hi
  · rw [hhead hr fun hm => hc (List.mem_append_right _ hm),List.append_nil]
    exact Or.inl hq.isInfix

/-- A written pair reads as a pair of its key. -/
theorem item_pairLine_trim (hy : y∈slots) (v : Text) :
    item (pairLine y.key v)=.pair ⟨y.key,trim v,true⟩ := by
  have hitem := item_of_name (isName_of_mem_slots hy) (s:=[' ']) rfl (' '::v)
  have htrim : trim (' '::v)=trim v :=
    congrArg (List.rdropWhile isSpace) (List.dropWhile_cons_of_pos rfl)
  rwa [htrim] at hitem

/-- A line stays ready for the other slots. -/
theorem ready_filled (hy : y∈slots) (hz : z∈slots) (hne : z≠y) (hv : ¬z.placeholder<:+:v)
    (h : Ready z l) : Ready z (y.filled v l) := by
  rw [Slot.filled]
  split
  · obtain ⟨hkey,hblank,hreach⟩ := apart_slots hy hz hne
    refine Or.inr ⟨fun hi => ?_,eq_false_of_ne_true fun hmatch => ?_⟩
    · have hline : pairLine y.key v=(y.key++[' ','='])++ ' '::v := by
        rw [List.append_assoc]
        rfl
      rw [hline] at hi
      exact (infix_append_cons hblank hi).elim hreach hv
    · obtain ⟨w,hw⟩ := (keyLine_iff_item (isName_of_mem_slots hz)).mp hmatch
      rw [item_pairLine_trim hy] at hw
      exact hkey (Pair.mk.inj (Item.pair.inj hw)).1.symm
  · exact h

/-- Filling in a value changes the pair of its line only. -/
theorem item_filled (hy : y∈slots) (h : Ready y l) :
    item (y.filled v l)=mapPair (replacePair y.key (trim v)) (item l) := by
  rw [Slot.filled]
  split
  · rename_i hline
    rw [hline,Slot.line,item_pairLine_trim hy,item_pairLine_trim hy,mapPair,replacePair,
      if_pos ⟨rfl,rfl⟩]
  · rename_i hline
    have hkey := (h.resolve_left hline).2
    cases hitem : item l with
    | pair p =>
      rw [mapPair,replacePair,if_neg]
      rintro ⟨hp,hstart⟩
      refine ne_true_of_eq_false hkey
        ((keyLine_iff_item (isName_of_mem_slots hy)).mpr ⟨p.value,hitem.trans ?_⟩)
      rw [←hp,←hstart]
    | nothing | header | malformed => rfl

/-- The text around the placeholder of a slot is free of it. -/
theorem around_slot (hy : y∈slots) : Around id [y.placeholder] (y.key++[' ','=',' ']) [] := by
  obtain ⟨hne,hblank,hfree⟩ := (checked_slots y hy).2.2.1
  constructor
  · intro p hp hi
    rw [List.mem_singleton.mp hp,List.map_id] at hi
    exact hfree hi
  · intro p hp hi
    rw [List.mem_singleton.mp hp] at hi
    exact hne (List.infix_nil.mp hi)
  · intro c hc p hp
    have hlast : y.key++[' ','=',' ']=(y.key++[' ','='])++[' '] := by
      rw [List.append_assoc]
      rfl
    rw [hlast,List.getLast?_concat] at hc
    rw [List.mem_singleton.mp hp,←Option.some.inj hc]
    exact hblank
  · intro c hc
    cases hc

/-- Substituting the placeholder of a slot fills in the value. -/
theorem substitute_ready (hy : y∈slots) (h : Ready y l) (v : Text) :
    substitute id [(y.placeholder,v)] l=y.filled v l := by
  rcases h with rfl|⟨hfree,_⟩
  · have haround := around_slot hy
    have hne : ∀ c∈[(y.placeholder,v)],c.1≠[] := by
      intro c hc hnil
      rw [List.mem_singleton.mp hc] at hnil
      exact haround.after_free y.placeholder (List.mem_singleton_self _) (hnil ▸ List.nil_infix)
    have hfits : Fits [(y.placeholder,v)] [y.key++[' ','=',' ']++y.placeholder++[]] :=
      ⟨hne,List.pairwise_singleton _ _,
        fun l hl => Or.inr ⟨_,_,_,List.mem_singleton_self _,List.mem_singleton.mp hl,haround⟩,
        fun c hc => ⟨_,_,by rw [List.mem_singleton.mp hc]; exact List.mem_singleton_self _,haround⟩⟩
    rw [Slot.filled,if_pos rfl,Slot.line,pairLine_eq,pairLine_eq]
    exact (show Fits ([]++(y.placeholder,v)::[]) _ from hfits).substitute_place haround
  · have hne : l≠y.line := by
      rintro rfl
      have hsplit : y.line=(y.key++[' ','=',' '])++y.placeholder := by
        rw [Slot.line,pairLine_eq,List.append_nil]
      exact hfree (hsplit ▸ (List.suffix_append _ _).isInfix)
    rw [Slot.filled,if_neg hne]
    refine substitute_of_absent fun b hb => ?_
    rw [List.mem_singleton.mp hb,List.map_id]
    exact hfree

end Slots

section Shipped

variable {serverUrl gatewayToken : BuildValue} {y : Slot} {l : Text}

/-- A line of the template as the recipe installs it. -/
def installedLine (serverUrl gatewayToken : BuildValue) (l : Text) : Text :=
  tokenSlot.filled gatewayToken.text (serverSlot.filled serverUrl.text l)

theorem serverSlot_mem : serverSlot∈slots := List.mem_cons_self
theorem tokenSlot_mem : tokenSlot∈slots := List.mem_cons_of_mem _ List.mem_cons_self

/-- The slots of the server and the token differ in their keys. -/
theorem tokenSlot_ne : tokenSlot≠serverSlot := by
  intro he
  exact absurd (congrArg Slot.key he) (by decide)

/-- The recipe fills in the server and the token. -/
theorem installedTemplate_eq (sed : Sed) (h : Deployable serverUrl gatewayToken) :
    installedTemplate sed serverUrl gatewayToken=
      some (configTemplate.map (installedLine serverUrl gatewayToken)) := by
  have hliteral : ∀ c∈installBindings serverUrl gatewayToken,ReadsLiterally c := by
    intro c hc
    have hplaceholder : c.1≠[] ∧ c.1.all isLiteral=true := by
      have hall : ∀ p∈["@@HAWKBIT_SERVER@@".toList,"@@GATEWAY_TOKEN@@".toList],
          p≠[] ∧ p.all isLiteral=true := by decide +kernel
      exact hall c.1 (List.mem_map_of_mem (f:=Prod.fst) hc)
    exact (readsLiterally_iff hplaceholder.1 hplaceholder.2).mpr (h.noSpecial c hc)
  rw [installedTemplate,runSed_of_readsLiterally sed _ hliteral]
  refine congrArg some (List.map_congr_left fun l hl => ?_)
  have hready := ready_filled serverSlot_mem tokenSlot_mem tokenSlot_ne
    (h.server _ tokenSlot_mem tokenSlot_ne) (ready_configTemplate tokenSlot_mem hl)
  have hserver : substitute id [("@@HAWKBIT_SERVER@@".toList,serverUrl.text)] l=
      serverSlot.filled serverUrl.text l :=
    substitute_ready serverSlot_mem (ready_configTemplate serverSlot_mem hl) _
  rw [installBindings,substituteEach,hserver]
  exact substitute_ready tokenSlot_mem hready _

/-- The other slots of an installed line are as they were. -/
theorem ready_installedLine (h : Deployable serverUrl gatewayToken) (hy : y∈slots)
    (hserver : y≠serverSlot) (htoken : y≠tokenSlot) (hl : l∈configTemplate) :
    Ready y (installedLine serverUrl gatewayToken l) :=
  ready_filled tokenSlot_mem hy htoken (h.token y hy hserver htoken)
    (ready_filled serverSlot_mem hy hserver (h.server y hy hserver) (ready_configTemplate hy hl))

/-- The lines of the shipped template. -/
theorem lines_shipped (f : Text → Text) (hf : ∀ l∈configTemplate,'\n'∉f l) :
    lines (unlines (configTemplate.map f))=configTemplate.map f := by
  refine lines_unlines fun m hm => ?_
  obtain ⟨l,hl,rfl⟩ := List.mem_map.mp hm
  exact hf l hl

/-- A filled line is one line. -/
theorem newline_notMem_filled (hy : y∈slots) (v : BuildValue) (h : '\n'∉l) :
    '\n'∉y.filled v.text l := by
  rw [Slot.filled]
  split
  · intro hm
    rw [pairLine_eq,List.append_nil] at hm
    rcases List.mem_append.mp hm with hkey|hv
    · exact (checked_slots y hy).2.1 hkey
    · exact v.oneLine hv
  · exact h

/-- Filling in a value changes the pairs of the file that have its key. -/
theorem items_filled (hy : y∈slots) (v : BuildValue) (f : Text → Text)
    (hf : ∀ l∈configTemplate,'\n'∉f l ∧ Ready y (f l)) :
    items (unlines (configTemplate.map (y.filled v.text∘f)))=
      (items (unlines (configTemplate.map f))).map (mapPair (replacePair y.key (trim v.text))) := by
  rw [items,items,lines_shipped f fun l hl => (hf l hl).1,
    lines_shipped (y.filled v.text∘f) fun l hl => newline_notMem_filled hy v (hf l hl).1,List.map_map,List.map_map,
    List.map_map]
  exact List.map_congr_left fun l hl => item_filled hy (hf l hl).2

/-- The shipped template as a text. -/
def shippedText (serverUrl gatewayToken : BuildValue) : Text :=
  unlines (configTemplate.map (installedLine serverUrl gatewayToken))

/-- The two rounds of filling in. -/
theorem items_shippedText (h : Deployable serverUrl gatewayToken) : ∃ t,
    items t=(items (unlines configTemplate)).map
      (mapPair (replacePair serverSlot.key (trim serverUrl.text))) ∧
    items (shippedText serverUrl gatewayToken)=(items t).map
      (mapPair (replacePair tokenSlot.key (trim gatewayToken.text))) := by
  have hfree : ∀ l∈configTemplate,'\n'∉l := fun l hl => (laid_configTemplate.1 l hl).1
  have hserver := items_filled serverSlot_mem serverUrl id fun l hl =>
    ⟨hfree l hl,ready_configTemplate serverSlot_mem hl⟩
  have htoken := items_filled tokenSlot_mem gatewayToken (serverSlot.filled serverUrl.text)
    fun l hl => ⟨newline_notMem_filled serverSlot_mem serverUrl (hfree l hl),
      ready_filled serverSlot_mem tokenSlot_mem tokenSlot_ne
        (h.server _ tokenSlot_mem tokenSlot_ne) (ready_configTemplate tokenSlot_mem hl)⟩
  rw [List.map_id] at hserver
  exact ⟨_,hserver,htoken⟩

/-- The value of a slot in the shipped template. -/
def shippedValue (serverUrl gatewayToken : BuildValue) (y : Slot) : Text :=
  if y=serverSlot then trim serverUrl.text
  else if y=tokenSlot then trim gatewayToken.text
  else y.placeholder

/-- The pairs of the slots in the shipped template. -/
theorem pairAt_shippedText (h : Deployable serverUrl gatewayToken) (hy : y∈slots)
    (s : Option Text) : pairAt (shippedText serverUrl gatewayToken) s y.key=
      if s=some y.home then some ⟨y.key,shippedValue serverUrl gatewayToken y,true⟩ else none := by
  obtain ⟨t,hserver,htoken⟩ := items_shippedText h
  have hbase := (laid_configTemplate.2.1 y hy).pairAt_eq s
  have hmap : ∀ (key v : Text) (p : Pair),(if s=some y.home then some p else none).map
      (replacePair key v)=if s=some y.home then some (replacePair key v p) else none := by
    intro key v p
    split
    · rfl
    · rfl
  have hpair : ∀ (key v w : Text),replacePair key v ⟨key,w,true⟩=⟨key,v,true⟩ := fun _ _ _ =>
    if_pos ⟨rfl,rfl⟩
  have hkeys : tokenSlot.key≠serverSlot.key :=
    (apart_slots serverSlot_mem tokenSlot_mem tokenSlot_ne).1
  by_cases hfirst : y=serverSlot
  · subst hfirst
    rw [(editsOnly_mapPair htoken).pairAt_eq s hkeys.symm,pairAt_mapPair hserver,hbase,hmap,
      hpair,shippedValue,if_pos rfl]
  · by_cases hsecond : y=tokenSlot
    · subst hsecond
      rw [pairAt_mapPair htoken,(editsOnly_mapPair hserver).pairAt_eq s hkeys,hbase,hmap,hpair,
        shippedValue,if_neg hfirst,if_pos rfl]
    · rw [(editsOnly_mapPair htoken).pairAt_eq s (apart_slots tokenSlot_mem hy hsecond).1,
        (editsOnly_mapPair hserver).pairAt_eq s (apart_slots serverSlot_mem hy hfirst).1,hbase,
        shippedValue,if_neg hfirst,if_neg hsecond]

/-- The slots of the places are neither the server nor the token. -/
theorem placeSlot_spec {x : Place} (hx : x∈places) : placeSlot x∈slots ∧
    placeSlot x≠serverSlot ∧ placeSlot x≠tokenSlot := by
  have hall : ∀ x∈places,placeSlot x≠serverSlot ∧ placeSlot x≠tokenSlot := by decide +kernel
  exact ⟨List.mem_append_right _ (List.mem_map_of_mem hx),hall x hx⟩

/-- The shipped template is one for the identity. -/
theorem identityTemplate_shippedText (h : Deployable serverUrl gatewayToken) :
    IdentityTemplate (shippedText serverUrl gatewayToken) := by
  have hfree : ∀ l∈configTemplate,'\n'∉installedLine serverUrl gatewayToken l := fun l hl =>
    newline_notMem_filled tokenSlot_mem gatewayToken
      (newline_notMem_filled serverSlot_mem serverUrl (laid_configTemplate.1 l hl).1)
  constructor
  · intro m hm
    rw [shippedText,lines_shipped _ hfree] at hm
    obtain ⟨l,hl,rfl⟩ := List.mem_map.mp hm
    by_cases hplace : ∃ x∈places,installedLine serverUrl gatewayToken l=x.line
    · exact Or.inr hplace
    · refine Or.inl fun x hx => ?_
      obtain ⟨hy,hserver,htoken⟩ := placeSlot_spec hx
      have hready := ready_installedLine h hy hserver htoken hl
      exact hready.resolve_left fun hline => hplace ⟨x,hx,hline⟩
  · intro x hx s
    obtain ⟨hy,hserver,htoken⟩ := placeSlot_spec hx
    have hpair := pairAt_shippedText h hy s
    rw [shippedValue,if_neg hserver,if_neg htoken] at hpair
    exact hpair

/-- The headers of the shipped template are those of the template. -/
theorem headers_shippedText (h : Deployable serverUrl gatewayToken) {name : Text}
    (hname : name∈[client,device]) : headers name (shippedText serverUrl gatewayToken)=1 := by
  obtain ⟨t,hserver,htoken⟩ := items_shippedText h
  exact ((editsOnly_mapPair htoken).headers_eq name).trans
    (((editsOnly_mapPair hserver).headers_eq name).trans (laid_configTemplate.2.2.2 name hname))

/-- The shipped template can be read. -/
theorem isIni_shippedText (h : Deployable serverUrl gatewayToken) :
    IsIni (shippedText serverUrl gatewayToken) := by
  obtain ⟨t,hserver,htoken⟩ := items_shippedText h
  exact (editsOnly_mapPair htoken).isIni
    ((editsOnly_mapPair hserver).isIni laid_configTemplate.2.2.1)

/-- The shipped template as a file. -/
def shippedFile (h : Deployable serverUrl gatewayToken) : ConfigFile where
  text := shippedText serverUrl gatewayToken
  ini := isIni_shippedText h
  oneClient := headers_shippedText h List.mem_cons_self
  oneDevice := headers_shippedText h (List.mem_cons_of_mem _ List.mem_cons_self)

/-- A boot of a slot with or without the shipped template, after one with it. -/
theorem bootStep_shipped (h : Deployable serverUrl gatewayToken) (i : Identity) {b : Boot}
    (hb : b.template=none ∨ b.template=some (shippedText serverUrl gatewayToken)) :
    bootStep (some (generated i (shippedText serverUrl gatewayToken))) b=
      some (generated b.identity (shippedText serverUrl gatewayToken)) := by
  rcases hb with hb|hb
  · rw [bootStep_of_none hb,Option.map_some,
      patched_generated i b.identity (identityTemplate_shippedText h)]
  · exact bootStep_of_some hb _

/-- The file after boots of slots with or without the shipped template, at least
one of them with it. -/
theorem boots_shipped (h : Deployable serverUrl gatewayToken) (config : Option Text)
    (boots : List Boot) (b : Boot) (hboots : ∀ x∈boots++[b],
      x.template=none ∨ x.template=some (shippedText serverUrl gatewayToken))
    (hsome : ∃ x∈boots++[b],x.template≠none) : (boots++[b]).foldl bootStep config=
      some (generated b.identity (shippedText serverUrl gatewayToken)) := by
  have hlast : ∀ boots : List Boot,∀ b,(boots++[b]).foldl bootStep config=
      bootStep (boots.foldl bootStep config) b := by
    intro boots b
    rw [List.foldl_append]
    rfl
  have hb : ∀ boots : List Boot,∀ b : Boot,b∈boots++[b] := fun _ b =>
    List.mem_append_right _ (List.mem_singleton_self b)
  induction boots using List.reverseRecOn generalizing b with
  | nil =>
    obtain ⟨x,hx,hne⟩ := hsome
    obtain rfl : x=b := List.mem_singleton.mp hx
    exact bootStep_of_some ((hboots x (hb [] x)).resolve_left hne) config
  | append_singleton init c ih =>
    rw [hlast]
    by_cases hbefore : ∃ x∈init++[c],x.template≠none
    · rw [ih c (fun x hx => hboots x (List.mem_append_left _ hx)) hbefore]
      exact bootStep_shipped h c.identity (hboots b (hb _ b))
    · obtain ⟨x,hx,hne⟩ := hsome
      rcases List.mem_append.mp hx with hx|hx
      · exact absurd ⟨x,hx,hne⟩ hbefore
      · obtain rfl : x=b := List.mem_singleton.mp hx
        exact bootStep_of_some ((hboots x (hb _ x)).resolve_left hne) _

/-- After any boots of slots with or without the shipped template, at least one
of them with it, config.conf can be read and has the server and the token of the
build, the identity of the last boot and all other values of the template. -/
theorem shipped_boots_values (sed : Sed) (serverUrl gatewayToken : BuildValue)
    (h : Deployable serverUrl gatewayToken) (config : Option Text) (boots : List Boot) (b : Boot)
    (hboots : ∀ x∈boots++[b],x.template=none ∨
      x.template=shippedTemplate sed serverUrl gatewayToken)
    (hsome : ∃ x∈boots++[b],x.template≠none) :
    ∃ t,(boots++[b]).foldl bootStep config=some t ∧ IsIni t ∧
      valueAt t (some client) serverSlot.key=some (trim serverUrl.text) ∧
      valueAt t (some client) tokenSlot.key=some (trim gatewayToken.text) ∧
      ∃ template,shippedTemplate sed serverUrl gatewayToken=some template ∧
        ∀ s key,valueAt t s key=wanted b.identity (valueAt template) s key := by
  have hshipped : shippedTemplate sed serverUrl gatewayToken=
      some (shippedText serverUrl gatewayToken) := by
    rw [shippedTemplate,installedTemplate_eq sed h]
    rfl
  have htemplate := identityTemplate_shippedText h
  have hvalues : ∀ s key,valueAt (generated b.identity (shippedText serverUrl gatewayToken)) s key=
      wanted b.identity (valueAt (shippedText serverUrl gatewayToken)) s key :=
    valueAt_generated b.identity (shippedFile h) htemplate
  have hslot : ∀ y∈slots,(∀ x∈places,y≠placeSlot x) →
      valueAt (generated b.identity (shippedText serverUrl gatewayToken)) (some y.home) y.key=
        some (shippedValue serverUrl gatewayToken y) := by
    intro y hy hplace
    have hne : ∀ x∈settings b.identity,y.key≠x.key := by
      intro x hx
      obtain ⟨z,hz,_,hkey⟩ := exists_place b.identity x hx
      rw [←hkey]
      exact (apart_slots (placeSlot_spec hz).1 hy (hplace z hz)).1
    have hpair := pairAt_shippedText h hy (some y.home)
    rw [if_pos rfl] at hpair
    rw [hvalues,wanted_of_ne hne,valueAt]
    exact congrArg (Option.map Pair.value) hpair
  rw [hshipped] at hboots ⊢
  refine ⟨_,boots_shipped h config boots b hboots hsome,?_,?_,?_,_,rfl,hvalues⟩
  · have hini := isIni_patched b.identity (isIni_shippedText h)
    rwa [patched_template b.identity htemplate] at hini
  · exact hslot serverSlot serverSlot_mem fun x hx he => (placeSlot_spec hx).2.1 he.symm
  · have hvalue : shippedValue serverUrl gatewayToken tokenSlot=trim gatewayToken.text := by
      rw [shippedValue,if_neg tokenSlot_ne,if_pos rfl]
    rw [←hvalue]
    exact hslot tokenSlot tokenSlot_mem fun x hx he => (placeSlot_spec hx).2.2 he.symm

/-- The defaults of the recipe. -/
def defaultUrl : BuildValue := ⟨"localhost:8080".toList,by decide,by decide⟩
def defaultToken : BuildValue := ⟨"REPLACE_ME".toList,by decide,by decide⟩

theorem deployable_default : Deployable defaultUrl defaultToken := by
  have hplain : ∀ v∈[defaultUrl.text,defaultToken.text],v.all (· ∉ special '|')=true := by
    decide +kernel
  have hspecial : NoSpecial (installBindings defaultUrl defaultToken) := by
    intro c hc x hx
    have hc' := hplain c.2 (List.mem_map_of_mem (f:=Prod.snd) hc)
    exact of_decide_eq_true (List.all_eq_true.mp hc' x hx)
  have hfree : ∀ y∈slots,¬y.placeholder<:+:defaultUrl.text ∧ ¬y.placeholder<:+:defaultToken.text := by
    decide +kernel
  exact ⟨hspecial,fun y hy _ => (hfree y hy).1,fun y hy _ _ => (hfree y hy).2⟩

/-- A device with a broken config.conf boots a slot without the template after
one with it. -/
theorem shipped_boots_values_default :
    ∃ t,[⟨otherBoard,some (shippedText defaultUrl defaultToken)⟩,⟨rpi4,none⟩].foldl bootStep
        (some "[client".toList)=some t ∧ IsIni t ∧
      valueAt t (some client) serverSlot.key=some (trim defaultUrl.text) ∧
      valueAt t (some client) tokenSlot.key=some (trim defaultToken.text) ∧
      ∃ template,shippedTemplate (fun _ _ => none) defaultUrl defaultToken=some template ∧
        ∀ s key,valueAt t s key=wanted rpi4 (valueAt template) s key := by
  have hshipped : shippedTemplate (fun _ _ => none) defaultUrl defaultToken=
      some (shippedText defaultUrl defaultToken) := by
    rw [shippedTemplate,installedTemplate_eq _ deployable_default]
    rfl
  have hfirst : (⟨otherBoard,some (shippedText defaultUrl defaultToken)⟩ : Boot)∈
      [⟨otherBoard,some (shippedText defaultUrl defaultToken)⟩]++[⟨rpi4,none⟩] :=
    List.mem_cons_self
  refine shipped_boots_values (fun _ _ => none) defaultUrl defaultToken deployable_default
    (some "[client".toList) [⟨otherBoard,some (shippedText defaultUrl defaultToken)⟩] ⟨rpi4,none⟩
    ?_ ⟨_,hfirst,Option.some_ne_none _⟩
  intro x hx
  rw [hshipped]
  rcases List.mem_cons.mp hx with rfl|hx
  · exact Or.inr rfl
  · rw [List.mem_singleton.mp hx]
    exact Or.inl rfl

end Shipped

end Greenhouse.IdentityShipped
