import Greenhouse.IniEditing
import Greenhouse.PlaceholderSubstitution

/-!
# The identity in an existing config.conf

Without a template the identity script edits the existing file: it replaces the
target name, and replaces the serial number and the MAC address or puts them
behind the header of the device section. The edits know of no sections, miss
what does not begin its line, and never add a target name. A second run changes
nothing.
-/

namespace Greenhouse.IdentityPatch

open ShellText IniText IniEditing PlaceholderSubstitution

/-- A letter, a digit, a hyphen or a colon. -/
def isPlainChar (c : Char) : Bool := c.isAlphanum || decide (c= '-' ∨ c= ':')

/-- A text of letters, digits, hyphens and colons. -/
structure PlainText where
  text : Text
  plain : text.all isPlainChar=true

/-- The derived identity of a device. -/
structure Identity where
  targetName : PlainText
  serial : PlainText
  mac : PlainText

def client : Text := "client".toList
def device : Text := "device".toList
def targetKey : Text := "target_name".toList
def serialKey : Text := "serial".toList
def macKey : Text := "mac_address".toList

/-- An existing config.conf with one section of each kind. -/
structure ConfigFile where
  text : Text
  ini : IsIni text
  oneClient : headers client text=1
  oneDevice : headers device text=1

/-- The placeholders of the template. -/
def templateBindings (i : Identity) : List (Binding Char Char) :=
  [("@@TARGET_NAME@@".toList,i.targetName.text),("@@SERIAL@@".toList,i.serial.text),
    ("@@MAC@@".toList,i.mac.text)]

/-- Generate config.conf from the template. -/
def generated (i : Identity) (template : Text) : Text :=
  edited (fun l => [substituteEach id (templateBindings i) l]) template

/-- Update a device attribute: replace it when grep finds it, append it otherwise. -/
def updated (key value t : Text) : Text :=
  if hasKey key t=true then substituted key value t else appended device key value t

/-- Patch the existing config.conf. -/
def patched (i : Identity) (t : Text) : Text :=
  updated macKey i.mac.text
    (updated serialKey i.serial.text (substituted targetKey i.targetName.text t))

/-- The end of a run with the config.conf that it leaves. -/
structure Outcome where
  exitStatus : ℕ
  config : Option Text
  deriving DecidableEq

/-- rauc-hawkbit-identity.sh, behind the reading of the identity. -/
def identityRun (i : Identity) (template config : Option Text) : Outcome :=
  match template with
  | some t => ⟨0,some (generated i t)⟩
  | none =>
    match config with
    | some t => ⟨0,some (patched i t)⟩
    | none => ⟨1,none⟩

/-- A value of the identity with its place in config.conf. -/
structure Setting where
  /-- The section of the key. -/
  home : Text
  key : Text
  value : PlainText
  /-- The key is added when it is missing. -/
  added : Bool

/-- The places of the identity. -/
def settings (i : Identity) : List Setting :=
  [⟨client,targetKey,i.targetName,false⟩,⟨device,serialKey,i.serial,true⟩,
    ⟨device,macKey,i.mac,true⟩]

/-- The values of a file with the identity in its places. -/
def wanted (i : Identity) (before : Option Text → Text → Option Text) (s : Option Text)
    (key : Text) : Option Text :=
  match (settings i).find? fun x => decide (s=some x.home ∧ key=x.key) with
  | some x => some x.value.text
  | none => before s key

/-- The run leaves a file with the identity in its places and all other values
as they were, and a second run leaves this file as it is. -/
def PatchesRight (i : Identity) (c : ConfigFile) : Prop :=
  ∃ t,identityRun i none (some c.text)=⟨0,some t⟩ ∧ IsIni t ∧
    (∀ s key,valueAt t s key=wanted i (valueAt c.text) s key) ∧
    identityRun i none (some t)=⟨0,some t⟩

/-- When the edits bring a value of the identity to its place and to no other. -/
structure Reaches (x : Setting) (t : Text) : Prop where
  /-- In another section the key is not at the start of its line or has the
  value already. -/
  elsewhere : ∀ s≠some x.home,∀ p,pairAt t s x.key=some p → p.atStart=true →
    p.value=x.value.text
  /-- In its section the key is at the start of its line or has the value
  already. -/
  present : ∀ p,pairAt t (some x.home) x.key=some p → p.atStart=true ∨ p.value=x.value.text
  /-- A missing key is one that is added, no line has it, and the header of its
  section is at the start of its line. -/
  absent : pairAt t (some x.home) x.key=none →
    x.added=true ∧ hasKey x.key t=false ∧ hasHeader x.home t=true

/-- A plain text has no white space. -/
theorem PlainText.noSpace (v : PlainText) : ∀ c∈v.text,isSpace c=false := by
  intro c hc
  have hplain := List.all_eq_true.mp v.plain c hc
  rw [isPlainChar,Bool.or_eq_true] at hplain
  refine decide_eq_false fun hspace => ?_
  have hlow : c.toNat≤32 := by
    rcases hspace with rfl|⟨_,hc⟩
    · decide
    · exact le_trans (show c.toNat≤13 from hc) (by decide)
  rcases hplain with h|h
  · have hcontrol : ∀ n < 33,(Char.ofNat n).isAlphanum=false := by decide
    have hc := hcontrol c.toNat (Nat.lt_succ_of_le hlow)
    rw [Char.ofNat_toNat,h] at hc
    cases hc
  · rcases of_decide_eq_true h with rfl|rfl
    · exact absurd hlow (by decide)
    · exact absurd hlow (by decide)

section Attributes

variable {key k t : Text} {v : PlainText}

/-- Updating an attribute concerns the pairs of its key. -/
theorem editsOnly_updated (h : IsName key) (v : PlainText) (hini : IsIni t) :
    EditsOnly key t (updated key v.text t) := by
  rw [updated]
  split
  · exact editsOnly_substituted h v.noSpace t
  · exact editsOnly_appended h v.noSpace (by decide) hini

/-- The lines of an updated file. -/
theorem mem_lines_updated (h : IsName key) {l : Text} (hl : l∈lines (updated key v.text t)) :
    l∈lines t ∨ l=pairLine key v.text := by
  rw [updated] at hl
  split at hl
  · rw [lines_substituted h v.noSpace] at hl
    obtain ⟨m,hm,rfl⟩ := List.mem_map.mp hl
    rw [replaced]
    split
    · exact Or.inr rfl
    · exact Or.inl hm
  · rw [lines_appended h v.noSpace] at hl
    obtain ⟨m,hm,hl⟩ := List.mem_flatMap.mp hl
    rcases mem_followed hl with rfl|he
    · exact Or.inl hm
    · exact Or.inr he

/-- The pairs of the key after updating. -/
theorem pairAt_updated (h : IsName key) (v : PlainText) (hini : IsIni t)
    (hone : headers device t=1) (s : Option Text) :
    pairAt (updated key v.text t) s key=((pairAt t s key).map (replacePair key v.text)).or
      (if s=some device ∧ hasKey key t=false ∧ hasHeader device t=true then
        some ⟨key,v.text,true⟩ else none) := by
  rw [updated]
  by_cases hkey : hasKey key t=true
  · rw [if_pos hkey,pairAt_substituted h v.noSpace,if_neg,Option.or_none]
    exact fun hand => ne_true_of_eq_false hand.2.1 hkey
  · have hfalse := eq_false_of_ne_true hkey
    have hsame : (pairAt t s key).map (replacePair key v.text)=pairAt t s key := by
      refine (Option.map_congr fun p hp => ?_).trans Option.map_id'
      refine if_neg fun hmatch => hkey ((hasKey_iff h).mpr ⟨p.value,?_⟩)
      have hmem := mem_of_lastPair hp
      rwa [show p=⟨key,p.value,true⟩ by rw [←hmatch.1,←hmatch.2]] at hmem
    rw [if_neg hkey,pairAt_appended h v.noSpace (by decide) hini hone,hsame]
    simp only [hfalse,true_and]

/-- The attribute is on all matching lines, and there is one or no place for it. -/
structure Placed (key : Text) (v : PlainText) (t : Text) : Prop where
  settled : Settled key v.text t
  found : hasKey key t=true ∨ hasHeader device t=false

/-- An attribute in its place is not updated. -/
theorem Placed.updated_eq (h : Placed key v t) : updated key v.text t=t := by
  rw [updated]
  split
  · exact h.settled.substituted_eq
  · rename_i hkey
    exact appended_eq (h.found.resolve_left hkey)

/-- Updating puts an attribute in its place. -/
theorem placed_updated (h : IsName key) (v : PlainText) (t : Text) :
    Placed key v (updated key v.text t) := by
  rw [updated]
  split
  · rename_i hkey
    exact ⟨settled_substituted h v.noSpace t,Or.inl ((hasKey_substituted h v.noSpace t).trans hkey)⟩
  · rename_i hkey
    have hno : ∀ l∈lines t,¬keyLine key l=true :=
      List.any_eq_false.mp (eq_false_of_ne_true hkey)
    by_cases hheader : hasHeader device t=true
    · have hlines := lines_appended h v.noSpace device t
      constructor
      · intro l hl hmatch
        rw [hlines] at hl
        obtain ⟨m,hm,hl⟩ := List.mem_flatMap.mp hl
        rcases mem_followed hl with rfl|he
        · exact absurd hmatch (hno l hm)
        · exact he
      · obtain ⟨l,hl,hmatch⟩ := List.any_eq_true.mp hheader
        have hpair : pairLine key v.text∈followed device key v.text l := by
          rw [followed,if_pos hmatch]
          exact List.mem_cons_of_mem _ (List.mem_singleton_self _)
        refine Or.inl (List.any_eq_true.mpr ⟨_,?_,(keyLine_iff_item h).mpr
          ⟨v.text,item_pairLine h v.noSpace⟩⟩)
        rw [hlines]
        exact List.mem_flatMap.mpr ⟨l,hl,hpair⟩
    · have hfalse := eq_false_of_ne_true hheader
      rw [appended_eq hfalse]
      exact ⟨fun l hl hmatch => absurd hmatch (hno l hl),Or.inr hfalse⟩

/-- Updating another key keeps a settled one. -/
theorem settled_updated (hkey : IsName key) (hk : IsName k) (hne : key≠k) (w : PlainText)
    (h : Settled key v.text t) : Settled key v.text (updated k w.text t) := by
  intro l hl hmatch
  rcases mem_lines_updated hk hl with hl|rfl
  · exact h l hl hmatch
  · obtain ⟨x,hx⟩ := (keyLine_iff_item hkey).mp hmatch
    rw [item_pairLine hk w.noSpace] at hx
    cases hx
    exact absurd rfl hne

/-- Updating another key keeps an attribute in its place. -/
theorem Placed.updated (h : Placed key v t) (hkey : IsName key) (hk : IsName k) (hne : key≠k)
    (w : PlainText) (hini : IsIni t) : Placed key v (updated k w.text t) := by
  have hedits := editsOnly_updated hk w hini
  refine ⟨settled_updated hkey hk hne w h.settled,?_⟩
  rw [hedits.hasKey_eq hkey hne,hedits.hasHeader_eq (by decide) hini]
  exact h.found

end Attributes

section Run

variable {i : Identity} {t : Text}

theorem isName_targetKey : IsName targetKey := by decide +kernel
theorem isName_serialKey : IsName serialKey := by decide +kernel
theorem isName_macKey : IsName macKey := by decide +kernel

/-- The three edits of a patch, one after the other. -/
theorem patched_edits (i : Identity) (hini : IsIni t) : ∃ t₁ t₂,
    t₁=substituted targetKey i.targetName.text t ∧ EditsOnly targetKey t t₁ ∧ IsIni t₁ ∧
    t₂=updated serialKey i.serial.text t₁ ∧ EditsOnly serialKey t₁ t₂ ∧ IsIni t₂ ∧
    patched i t=updated macKey i.mac.text t₂ ∧ EditsOnly macKey t₂ (patched i t) := by
  have hedit₁ := editsOnly_substituted isName_targetKey i.targetName.noSpace t
  have hini₁ := hedit₁.isIni hini
  have hedit₂ := editsOnly_updated isName_serialKey i.serial hini₁
  have hini₂ := hedit₂.isIni hini₁
  exact ⟨_,_,rfl,hedit₁,hini₁,rfl,hedit₂,hini₂,rfl,editsOnly_updated isName_macKey i.mac hini₂⟩

/-- The patched file can be read. -/
theorem isIni_patched (i : Identity) (hini : IsIni t) : IsIni (patched i t) := by
  obtain ⟨_,_,_,_,_,_,_,hini₂,_,hedit₃⟩ := patched_edits i hini
  exact hedit₃.isIni hini₂

/-- A second run leaves the file as it is. -/
theorem patched_patched (i : Identity) (hini : IsIni t) : patched i (patched i t)=patched i t := by
  obtain ⟨t₁,t₂,ht₁,_,_,ht₂,_,hini₂,ht₃,_⟩ := patched_edits i hini
  have htarget : Settled targetKey i.targetName.text t₁ := by
    rw [ht₁]
    exact settled_substituted isName_targetKey i.targetName.noSpace t
  have htarget₂ : Settled targetKey i.targetName.text t₂ := by
    rw [ht₂]
    exact settled_updated isName_targetKey isName_serialKey (by decide) i.serial htarget
  have hserial : Placed serialKey i.serial t₂ := by
    rw [ht₂]
    exact placed_updated isName_serialKey i.serial t₁
  have htarget₃ := settled_updated isName_targetKey isName_macKey (by decide) i.mac htarget₂
  have hserial₃ := hserial.updated isName_serialKey isName_macKey (by decide) i.mac hini₂
  have hmac := placed_updated isName_macKey i.mac t₂
  rw [←ht₃] at htarget₃ hserial₃ hmac
  rw [patched,htarget₃.substituted_eq,hserial₃.updated_eq,hmac.updated_eq]

/-- The settings have different keys. -/
theorem nodup_settings (i : Identity) : ((settings i).map Setting.key).Nodup := by
  have hkeys : [targetKey,serialKey,macKey].Nodup := by decide
  exact hkeys

/-- The value of a setting is wanted in its section only. -/
theorem wanted_of_mem {x : Setting} (h : x∈settings i) (before : Option Text → Text → Option Text)
    (s : Option Text) :
    wanted i before s x.key=if s=some x.home then some x.value.text else before s x.key := by
  have hfind : ∀ xs : List Setting,(xs.map Setting.key).Nodup → x∈xs →
      xs.find? (fun y => decide (s=some y.home ∧ x.key=y.key))=
        if s=some x.home then some x else none := by
    intro xs hnodup hx
    induction xs with
    | nil => cases hx
    | cons y ys ih =>
      rw [List.map_cons,List.nodup_cons] at hnodup
      rw [List.find?_cons]
      rcases List.mem_cons.mp hx with rfl|hx
      · by_cases hs : s=some x.home
        · rw [decide_eq_true ⟨hs,rfl⟩,if_pos hs]
        · rw [decide_eq_false fun hand => hs hand.1,if_neg hs]
          refine List.find?_eq_none.mpr fun z hz hmatch => hnodup.1 ?_
          rw [(of_decide_eq_true hmatch).2]
          exact List.mem_map_of_mem hz
      · have hne : x.key≠y.key := fun he => hnodup.1 (he ▸ List.mem_map_of_mem hx)
        rw [decide_eq_false fun hand => hne hand.2]
        exact ih hnodup.2 hx
  rw [wanted,hfind _ (nodup_settings i) h]
  split_ifs with hs
  · rfl
  · rfl

/-- The pairs of a setting after the edits. -/
theorem pairAt_patched (i : Identity) (c : ConfigFile) {x : Setting} (h : x∈settings i)
    (s : Option Text) : pairAt (patched i c.text) s x.key=
      ((pairAt c.text s x.key).map (replacePair x.key x.value.text)).or
        (if s=some x.home ∧ x.added=true ∧ hasKey x.key c.text=false ∧
          hasHeader x.home c.text=true then some ⟨x.key,x.value.text,true⟩ else none) := by
  obtain ⟨t₁,t₂,ht₁,hedit₁,hini₁,ht₂,hedit₂,hini₂,ht₃,hedit₃⟩ := patched_edits i c.ini
  have hone₁ := (hedit₁.headers_eq device).trans c.oneDevice
  have hone₂ := (hedit₂.headers_eq device).trans hone₁
  have hheader₁ := hedit₁.hasHeader_eq (by decide : ']'∉device) c.ini
  have hheader₂ := (hedit₂.hasHeader_eq (by decide : ']'∉device) hini₁).trans hheader₁
  simp only [settings,List.mem_cons,List.not_mem_nil,or_false] at h
  rcases h with rfl|rfl|rfl
  · rw [hedit₃.pairAt_eq s (by decide : targetKey≠macKey),
      hedit₂.pairAt_eq s (by decide : targetKey≠serialKey),ht₁,
      pairAt_substituted isName_targetKey i.targetName.noSpace]
    simp only [Bool.false_eq_true,false_and,and_false,if_false,Option.or_none]
  · rw [hedit₃.pairAt_eq s (by decide : serialKey≠macKey),ht₂,
      pairAt_updated isName_serialKey i.serial hini₁ hone₁,
      hedit₁.pairAt_eq s (by decide : serialKey≠targetKey),
      hedit₁.hasKey_eq isName_serialKey (by decide : serialKey≠targetKey),hheader₁]
    simp only [true_and]
  · rw [ht₃,pairAt_updated isName_macKey i.mac hini₂ hone₂,
      hedit₂.pairAt_eq s (by decide : macKey≠serialKey),
      hedit₁.pairAt_eq s (by decide : macKey≠targetKey),
      hedit₂.hasKey_eq isName_macKey (by decide : macKey≠serialKey),
      hedit₁.hasKey_eq isName_macKey (by decide : macKey≠targetKey),hheader₂]
    simp only [true_and]

/-- The pairs of other keys are kept. -/
theorem pairAt_patched_of_ne (i : Identity) (c : ConfigFile) {k : Text}
    (h : ∀ x∈settings i,k≠x.key) (s : Option Text) :
    pairAt (patched i c.text) s k=pairAt c.text s k := by
  obtain ⟨_,_,_,hedit₁,_,_,hedit₂,_,_,hedit₃⟩ := patched_edits i c.ini
  simp only [settings,List.forall_mem_cons] at h
  obtain ⟨htarget,hserial,hmac,_⟩ := h
  rw [hedit₃.pairAt_eq s hmac,hedit₂.pairAt_eq s hserial,hedit₁.pairAt_eq s htarget]

/-- The edits put a value in its place exactly when they reach it. -/
theorem values_iff_reaches (i : Identity) (c : ConfigFile) {x : Setting} (h : x∈settings i) :
    (∀ s,valueAt (patched i c.text) s x.key=wanted i (valueAt c.text) s x.key) ↔
      Reaches x c.text := by
  have hfound : ∀ {s p},pairAt c.text s x.key=some p → pairAt (patched i c.text) s x.key=
      some (if p.atStart=true then ⟨x.key,x.value.text,true⟩ else p) := by
    intro s p hp
    have hkey := key_of_lastPair hp
    rw [pairAt_patched i c h,hp,Option.map_some,Option.some_or,replacePair]
    simp only [hkey,true_and]
  have hvalue : ∀ {s p},pairAt c.text s x.key=some p →
      (valueAt (patched i c.text) s x.key=some x.value.text ↔
        p.atStart=true ∨ p.value=x.value.text) := by
    intro s p hp
    rw [valueAt,hfound hp,Option.map_some,Option.some.injEq]
    split_ifs with hstart
    · exact iff_of_true rfl (Or.inl hstart)
    · exact (or_iff_right hstart).symm
  have hmissing : ∀ {s},pairAt c.text s x.key=none → pairAt (patched i c.text) s x.key=
      if s=some x.home ∧ x.added=true ∧ hasKey x.key c.text=false ∧ hasHeader x.home c.text=true then
        some ⟨x.key,x.value.text,true⟩ else none := by
    intro s hp
    rw [pairAt_patched i c h,hp,Option.map_none,Option.none_or]
  constructor
  · intro hall
    have hhome := (hall (some x.home)).trans
      ((wanted_of_mem h _ _).trans (if_pos rfl))
    refine ⟨fun s hs p hp hstart => ?_,fun p hp => (hvalue hp).mp hhome,fun hp => ?_⟩
    · have hsame := (hall s).trans ((wanted_of_mem h _ _).trans (if_neg hs))
      rw [valueAt,valueAt,hfound hp,hp,if_pos hstart] at hsame
      exact (Option.some.inj hsame).symm
    · rw [valueAt,hmissing hp] at hhome
      split at hhome
      · rename_i hadded
        exact hadded.2
      · cases hhome
  · intro hreaches s
    rw [wanted_of_mem h]
    split_ifs with hs
    · rw [hs]
      cases hp : pairAt c.text (some x.home) x.key with
      | some p => exact (hvalue hp).mpr (hreaches.present p hp)
      | none =>
        rw [valueAt,hmissing hp,if_pos ⟨rfl,hreaches.absent hp⟩]
        rfl
    · rw [valueAt,valueAt]
      cases hp : pairAt c.text s x.key with
      | some p =>
        rw [hfound hp]
        split_ifs with hstart
        · exact congrArg some (hreaches.elsewhere s hs p hp hstart).symm
        · rfl
      | none => rw [hmissing hp,if_neg fun hand => hs hand.1]

/-- Patching an existing config.conf puts the identity in its places, changes
nothing else and is stable exactly when the edits reach every place. -/
theorem patchesRight_iff (i : Identity) (c : ConfigFile) :
    PatchesRight i c ↔ ∀ x∈settings i,Reaches x c.text := by
  have hwanted : (∀ s k,valueAt (patched i c.text) s k=wanted i (valueAt c.text) s k) ↔
      ∀ x∈settings i,Reaches x c.text := by
    constructor
    · intro hall x hx
      exact (values_iff_reaches i c hx).mp fun s => hall s x.key
    · intro hreaches s k
      by_cases hk : ∃ x∈settings i,k=x.key
      · obtain ⟨x,hx,rfl⟩ := hk
        exact (values_iff_reaches i c hx).mpr (hreaches x hx) s
      · have hne : ∀ x∈settings i,k≠x.key := fun x hx he => hk ⟨x,hx,he⟩
        have hnone : (settings i).find? (fun x => decide (s=some x.home ∧ k=x.key))=none :=
          List.find?_eq_none.mpr fun x hx hmatch => hne x hx (of_decide_eq_true hmatch).2
        rw [wanted,hnone,valueAt,pairAt_patched_of_ne i c hne]
        rfl
  rw [←hwanted]
  constructor
  · rintro ⟨t,hrun,_,hvalues,_⟩
    obtain rfl : patched i c.text=t := Option.some.inj (Outcome.mk.inj hrun).2
    exact hvalues
  · intro hvalues
    refine ⟨_,rfl,isIni_patched i c.ini,hvalues,?_⟩
    rw [identityRun,patched_patched i c.ini]

/-- The identity of a device. -/
def rpi4 : Identity :=
  ⟨⟨"rpi4-a1b2c3d4".toList,by decide⟩,⟨"a1b2c3d4".toList,by decide⟩,
    ⟨"dc:a6:32:00:00:01".toList,by decide⟩⟩

/-- A config.conf without the keys of the identity. -/
def withoutKeys : ConfigFile where
  text := "[client]\nssl = false\n[device]\nproduct = Device Base Platform\n".toList
  ini := by decide +kernel
  oneClient := by decide +kernel
  oneDevice := by decide +kernel

/-- The run succeeds and adds the serial number, but no target name. -/
theorem targetName_not_added :
    (identityRun rpi4 none (some withoutKeys.text)).exitStatus=0 ∧
      valueAt (patched rpi4 withoutKeys.text) (some device) serialKey=some "a1b2c3d4".toList ∧
      valueAt (patched rpi4 withoutKeys.text) (some client) targetKey=none ∧
      ¬PatchesRight rpi4 withoutKeys := by
  have hmissing : valueAt (patched rpi4 withoutKeys.text) (some client) targetKey=none := by
    decide +kernel
  refine ⟨rfl,by decide +kernel,hmissing,?_⟩
  rintro ⟨t,hrun,_,hvalues,_⟩
  obtain rfl : patched rpi4 withoutKeys.text=t := Option.some.inj (Outcome.mk.inj hrun).2
  have htarget := hvalues (some client) targetKey
  rw [hmissing] at htarget
  cases htarget

end Run

end Greenhouse.IdentityPatch
