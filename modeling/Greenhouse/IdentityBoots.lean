import Greenhouse.IdentityPatch
import Greenhouse.LineEditing
import Greenhouse.TemplateRendering

/-!
# The identity over many boots

The identity script runs on every boot, and config.conf is on the persistent
overlay, so a run finds what earlier boots, other slots and other boards have
left. A later patch takes back an earlier one and a patch of a generated file
generates it anew, so the last boot alone says which identity config.conf has.
-/

namespace Greenhouse.IdentityBoots

open ShellText IniText IniEditing LineEditing PlaceholderSubstitution TemplateRendering
  IdentityPatch

/-- A boot of a device. -/
structure Boot where
  identity : Identity
  /-- The template of the slot that is booted, if it has one. -/
  template : Option Text

/-- What a boot leaves of config.conf. -/
def bootStep (config : Option Text) (b : Boot) : Option Text :=
  (identityRun b.identity b.template config).config

/-- The template of the last boot that had one. -/
def lastTemplate (boots : List Boot) : Option Text := (boots.filterMap Boot.template).getLast?

/-- A place of the identity in a template. -/
structure Place where
  /-- The section of the place. -/
  home : Text
  key : Text
  placeholder : Text
  value : Identity → PlainText

/-- The places of the identity in a template. -/
def places : List Place :=
  [⟨client,targetKey,"@@TARGET_NAME@@".toList,Identity.targetName⟩,
    ⟨device,serialKey,"@@SERIAL@@".toList,Identity.serial⟩,
    ⟨device,macKey,"@@MAC@@".toList,Identity.mac⟩]

/-- The line of a place in a template. -/
def Place.line (x : Place) : Text := pairLine x.key x.placeholder

/-- A line with the identity when it begins with a key of it. -/
def identified (i : Identity) (l : Text) : Text :=
  replaced macKey i.mac.text (replaced serialKey i.serial.text (replaced targetKey
    i.targetName.text l))

/-- The line says nothing of the identity: it has no placeholder, and no key of
the identity at its start. -/
def Inert (l : Text) : Prop := ∀ x∈places,¬x.placeholder<:+:l ∧ keyLine x.key l=false

instance (l : Text) : Decidable (Inert l) :=
  inferInstanceAs (Decidable (∀ x∈places,_ ∧ _))

/-- A template with each key of the identity in its section, at the start of
its line and with its placeholder, and nowhere else. -/
structure IdentityTemplate (t : Text) : Prop where
  eachLine : ∀ l∈lines t,Inert l ∨ ∃ x∈places,l=x.line
  found : ∀ x∈places,∀ s,pairAt t s x.key=
    if s=some x.home then some ⟨x.key,x.placeholder,true⟩ else none

section Lines

variable {key k value v w name l t : Text}

/-- Only a pair of the key begins with it. -/
theorem keyLine_pairLine (hkey : IsName key) (hk : IsName k) (hv : ∀ c∈value,isSpace c=false)
    (hne : k≠key) : keyLine k (pairLine key value)=false := by
  refine eq_false_of_ne_true fun hmatch => ?_
  obtain ⟨x,hx⟩ := (keyLine_iff_item hk).mp hmatch
  rw [item_pairLine hkey hv] at hx
  cases hx
  exact hne rfl

/-- A written pair begins with its key. -/
theorem keyLine_pairLine_self (hkey : IsName key) (hv : ∀ c∈value,isSpace c=false) :
    keyLine key (pairLine key value)=true :=
  (keyLine_iff_item hkey).mpr ⟨value,item_pairLine hkey hv⟩

/-- A line begins with one key at most. -/
theorem keyLine_unique (hkey : IsName key) (hk : IsName k) (hne : k≠key)
    (h : keyLine key l=true) : keyLine k l=false := by
  refine eq_false_of_ne_true fun hmatch => ?_
  obtain ⟨x,hx⟩ := (keyLine_iff_item hkey).mp h
  obtain ⟨y,hy⟩ := (keyLine_iff_item hk).mp hmatch
  rw [hx] at hy
  cases hy
  exact hne rfl

/-- A header does not begin with a key. -/
theorem headerLine_of_keyLine (hkey : IsName key) (h : keyLine key l=true) :
    headerLine name l=false := by
  refine eq_false_of_ne_true fun hmatch => ?_
  obtain ⟨r,rfl⟩ := List.isPrefixOf_iff_prefix.mp hmatch
  obtain ⟨s,u,_,hl⟩ := keyLine_iff.mp h
  cases key with
  | nil => exact hkey.1 rfl
  | cons c rest =>
    have hc : '['=c := (List.cons.inj hl).1
    refine (hkey.2 c List.mem_cons_self).2 ?_
    rw [←hc]
    decide

/-- Replacing a key leaves the lines of other keys. -/
theorem keyLine_replaced (hkey : IsName key) (hk : IsName k) (hv : ∀ c∈value,isSpace c=false)
    (hne : k≠key) : keyLine k (replaced key value l)=keyLine k l := by
  rw [replaced]
  split
  · rename_i hmatch
    rw [keyLine_pairLine hkey hk hv hne,keyLine_unique hkey hk hne hmatch]
  · rfl

/-- Replacing a key leaves the headers. -/
theorem headerLine_replaced (hkey : IsName key) (hv : ∀ c∈value,isSpace c=false) :
    headerLine name (replaced key value l)=headerLine name l := by
  rw [replaced]
  split
  · rename_i hmatch
    rw [headerLine_of_keyLine hkey hmatch,
      headerLine_of_keyLine hkey (keyLine_pairLine_self hkey hv)]
  · rfl

/-- A line that does not begin with the key is kept. -/
theorem replaced_of_not (h : keyLine key l=false) : replaced key value l=l :=
  if_neg (ne_true_of_eq_false h)

/-- The later of two values of a key counts. -/
theorem replaced_replaced (hkey : IsName key) (hv : ∀ c∈v,isSpace c=false) :
    replaced key w (replaced key v l)=replaced key w l := by
  by_cases hmatch : keyLine key l=true
  · have hline : replaced key v l=pairLine key v := if_pos hmatch
    rw [hline,replaced,replaced,if_pos (keyLine_pairLine_self hkey hv),if_pos hmatch]
  · exact congrArg (replaced key w) (if_neg hmatch)

/-- Values of different keys are replaced in any order. -/
theorem replaced_comm (hkey : IsName key) (hk : IsName k) (hv : ∀ c∈v,isSpace c=false)
    (hw : ∀ c∈w,isSpace c=false) (hne : k≠key) :
    replaced k w (replaced key v l)=replaced key v (replaced k w l) := by
  by_cases hmatch : keyLine key l=true
  · have hline : replaced key v l=pairLine key v := if_pos hmatch
    rw [replaced_of_not (keyLine_unique hkey hk hne hmatch),hline,
      replaced_of_not (keyLine_pairLine hkey hk hv hne)]
  · have hfalse := eq_false_of_ne_true hmatch
    have hother : keyLine key (replaced k w l)=false :=
      (keyLine_replaced hk hkey hw hne.symm).trans hfalse
    rw [replaced_of_not hfalse,replaced_of_not hother]

/-- A value is replaced on the line with a pair behind it. -/
theorem followed_replaced (hkey : IsName key) (hk : IsName k) (hv : ∀ c∈v,isSpace c=false)
    (hw : ∀ c∈w,isSpace c=false) (hne : key≠k) :
    followed name k w (replaced key v l)=(followed name k w l).map (replaced key v) := by
  rw [followed,followed,headerLine_replaced hkey hv]
  split
  · rw [List.map_cons,List.map_singleton,replaced_of_not (keyLine_pairLine hk hkey hw hne)]
  · rfl

/-- The later of two values counts when the first is put behind a header. -/
theorem map_replaced_followed (hk : IsName k) (hv : ∀ c∈v,isSpace c=false)
    (h : keyLine k l=false) :
    (followed name k v l).map (replaced k w)=followed name k w l := by
  have hpair : replaced k w (pairLine k v)=pairLine k w := if_pos (keyLine_pairLine_self hk hv)
  rw [followed,followed]
  split
  · rw [List.map_cons,List.map_singleton,hpair,replaced_of_not h]
  · rw [List.map_singleton,replaced_of_not h]

end Lines

section Files

variable {key k v w name t : Text}

/-- Replacing a value makes one line of each line. -/
theorem keepsLines_replaced (hkey : IsName key) (hv : ∀ c∈v,isSpace c=false) (t : Text) :
    KeepsLines (fun l => [replaced key v l]) t := by
  refine fun l hl => ⟨List.cons_ne_nil _ _,fun m hm => ?_⟩
  rw [List.mem_singleton.mp hm,replaced]
  split
  · exact ⟨newline_notMem_pairLine hkey hv,fun _ => pairLine_ne_nil⟩
  · exact ⟨newline_notMem_of_mem_lines hl,id⟩

/-- Putting a pair behind a header makes one or two lines of each line. -/
theorem keepsLines_followed (hkey : IsName key) (hv : ∀ c∈v,isSpace c=false) (t : Text) :
    KeepsLines (followed name key v) t := by
  refine fun l hl => ⟨?_,fun m hm => ?_⟩
  · rw [followed]
    split
    · exact List.cons_ne_nil _ _
    · exact List.cons_ne_nil _ _
  · rcases mem_followed hm with rfl|rfl
    · exact ⟨newline_notMem_of_mem_lines hl,id⟩
    · exact ⟨newline_notMem_pairLine hkey hv,fun _ => pairLine_ne_nil⟩

/-- A second value of a key takes back the first. -/
theorem substituted_substituted (hkey : IsName key) (hv : ∀ c∈v,isSpace c=false)
    (hw : ∀ c∈w,isSpace c=false) (t : Text) :
    substituted key w (substituted key v t)=substituted key w t := by
  rw [substituted,substituted,
    edited_edited (keepsLines_replaced hkey hv t) (keepsLines_replaced hkey hw _)]
  exact edited_congr fun l _ => congrArg (fun m => [m]) (replaced_replaced hkey hv)

/-- Values of different keys are substituted in any order. -/
theorem substituted_comm (hkey : IsName key) (hk : IsName k) (hv : ∀ c∈v,isSpace c=false)
    (hw : ∀ c∈w,isSpace c=false) (hne : k≠key) (t : Text) :
    substituted k w (substituted key v t)=substituted key v (substituted k w t) := by
  simp only [substituted]
  rw [edited_edited (keepsLines_replaced hkey hv t) (keepsLines_replaced hk hw _),
    edited_edited (keepsLines_replaced hk hw t) (keepsLines_replaced hkey hv _)]
  exact edited_congr fun l _ => congrArg (fun m => [m]) (replaced_comm hkey hk hv hw hne)

/-- A value is substituted before or after a pair of another key is appended. -/
theorem substituted_appended_comm (hkey : IsName key) (hk : IsName k)
    (hv : ∀ c∈v,isSpace c=false) (hw : ∀ c∈w,isSpace c=false) (hne : key≠k) (name t : Text) :
    substituted key v (appended name k w t)=appended name k w (substituted key v t) := by
  rw [substituted,substituted,appended,appended,
    edited_edited (keepsLines_followed hk hw t) (keepsLines_replaced hkey hv _),
    edited_edited (keepsLines_replaced hkey hv t) (keepsLines_followed hk hw _)]
  refine edited_congr fun l _ => ?_
  rw [List.flatMap_singleton,followed_replaced hkey hk hv hw hne,List.map_eq_flatMap]

/-- A second value takes back the first that was appended. -/
theorem substituted_appended (hk : IsName k) (hv : ∀ c∈v,isSpace c=false)
    (hw : ∀ c∈w,isSpace c=false) (h : hasKey k t=false) :
    substituted k w (appended name k v t)=appended name k w t := by
  rw [substituted,appended,appended,
    edited_edited (keepsLines_followed hk hv t) (keepsLines_replaced hk hw _)]
  refine edited_congr fun l hl => ?_
  rw [←List.map_eq_flatMap,map_replaced_followed hk hv]
  exact eq_false_of_ne_true (List.any_eq_false.mp h l hl)

/-- A value is substituted in the text that another edit makes. -/
theorem substituted_edited {f : Text → Text} (hkey : IsName key) (hv : ∀ c∈v,isSpace c=false)
    (hf : KeepsLines (fun l => [f l]) t) :
    substituted key v (edited (fun l => [f l]) t)=edited (fun l => [replaced key v (f l)]) t ∧
      KeepsLines (fun l => [replaced key v (f l)]) t := by
  have hreplaced := keepsLines_replaced hkey hv (edited (fun l => [f l]) t)
  refine ⟨edited_edited hf hreplaced,fun l hl => ⟨List.cons_ne_nil _ _,fun m hm => ?_⟩⟩
  have hmem : f l∈lines (edited (fun l => [f l]) t) := by
    rw [(edited_spec hf).1]
    exact List.mem_flatMap.mpr ⟨l,hl,List.mem_singleton_self _⟩
  obtain ⟨hfree,hne⟩ := (hreplaced (f l) hmem).2 m hm
  exact ⟨hfree,fun hl' => hne (((hf l hl).2 _ (List.mem_singleton_self _)).2 hl')⟩

/-- Substituting leaves the headers. -/
theorem hasHeader_substituted (hkey : IsName key) (hv : ∀ c∈v,isSpace c=false) (name t : Text) :
    hasHeader name (substituted key v t)=hasHeader name t := by
  have hline : headerLine name∘replaced key v=headerLine name :=
    funext fun l => headerLine_replaced hkey hv
  rw [hasHeader,lines_substituted hkey hv,List.any_map,hline]
  rfl

/-- Substituting leaves other keys. -/
theorem hasKey_substituted_of_ne (hkey : IsName key) (hk : IsName k)
    (hv : ∀ c∈v,isSpace c=false) (hne : k≠key) (t : Text) :
    hasKey k (substituted key v t)=hasKey k t :=
  (editsOnly_substituted hkey hv t).hasKey_eq hk hne

/-- Appending leaves other keys. -/
theorem hasKey_appended_of_ne (hkey : IsName key) (hk : IsName k)
    (hv : ∀ c∈v,isSpace c=false) (hne : k≠key) (name t : Text) :
    hasKey k (appended name key v t)=hasKey k t := by
  have hline : ∀ l,(followed name key v l).any (keyLine k)=keyLine k l := by
    intro l
    rw [followed]
    split
    · rw [List.any_cons,List.any_cons,keyLine_pairLine hkey hk hv hne,List.any_nil,Bool.or_self,
        Bool.or_false]
    · exact Bool.or_false _
  rw [hasKey,lines_appended hkey hv,List.any_flatMap]
  simp only [hline]
  rfl

/-- Appending leaves the headers. -/
theorem hasHeader_appended (hkey : IsName key) (hv : ∀ c∈v,isSpace c=false)
    (h : hasHeader name t=true) : hasHeader name (appended name key v t)=true := by
  obtain ⟨l,hl,hmatch⟩ := List.any_eq_true.mp h
  have hmem : l∈followed name key v l := by
    rw [followed,if_pos hmatch]
    exact List.mem_cons_self
  rw [hasHeader,lines_appended hkey hv]
  exact List.any_eq_true.mpr ⟨l,List.mem_flatMap.mpr ⟨l,hl,hmem⟩,hmatch⟩

end Files

section Updates

variable {key k : Text}

/-- A second update of an attribute takes back the first. -/
theorem updated_updated (hkey : IsName key) (v w : PlainText) (t : Text) :
    updated key w.text (updated key v.text t)=updated key w.text t := by
  by_cases hfound : hasKey key t=true
  · have hfirst : updated key v.text t=substituted key v.text t := if_pos hfound
    have hsecond : updated key w.text t=substituted key w.text t := if_pos hfound
    rw [hfirst,hsecond,updated,if_pos ((hasKey_substituted hkey v.noSpace t).trans hfound)]
    exact substituted_substituted hkey v.noSpace w.noSpace t
  · have hfirst : updated key v.text t=appended device key v.text t := if_neg hfound
    have hsecond : updated key w.text t=appended device key w.text t := if_neg hfound
    rcases (placed_updated hkey v t).found with hplaced|hheader
    · rw [updated,if_pos hplaced,hfirst,hsecond]
      exact substituted_appended hkey v.noSpace w.noSpace (eq_false_of_ne_true hfound)
    · have hnone : hasHeader device t=false := by
        refine eq_false_of_ne_true fun htrue => ne_true_of_eq_false hheader ?_
        rw [hfirst]
        exact hasHeader_appended hkey v.noSpace htrue
      rw [hfirst,appended_eq hnone]

/-- Substituting another key does not interfere with an update. -/
theorem substituted_updated_comm (hkey : IsName key) (hk : IsName k) (hne : key≠k)
    (v w : PlainText) (t : Text) :
    substituted key v.text (updated k w.text t)=updated k w.text (substituted key v.text t) := by
  rw [updated,updated,hasKey_substituted_of_ne hkey hk v.noSpace hne.symm]
  split
  · exact substituted_comm hk hkey w.noSpace v.noSpace hne t
  · exact substituted_appended_comm hkey hk v.noSpace w.noSpace hne device t

/-- Updating an attribute leaves other keys. -/
theorem hasKey_updated_of_ne (hkey : IsName key) (hk : IsName k) (hne : k≠key)
    (v : PlainText) (t : Text) : hasKey k (updated key v.text t)=hasKey k t := by
  rw [updated]
  split
  · exact hasKey_substituted_of_ne hkey hk v.noSpace hne t
  · exact hasKey_appended_of_ne hkey hk v.noSpace hne device t

/-- Updates of two attributes do not interfere when the first is in its place. -/
theorem updated_comm (hkey : IsName key) (hk : IsName k) (hne : key≠k) (v w : PlainText)
    {t : Text} (h : hasKey key t=true ∨ hasHeader device t=false) :
    updated key v.text (updated k w.text t)=updated k w.text (updated key v.text t) := by
  have hsame := hasKey_updated_of_ne hk hkey hne w t
  by_cases hfound : hasKey key t=true
  · have hleft : updated key v.text (updated k w.text t)=
        substituted key v.text (updated k w.text t) := if_pos (hsame.trans hfound)
    have hright : updated key v.text t=substituted key v.text t := if_pos hfound
    rw [hleft,hright]
    exact substituted_updated_comm hkey hk hne v w t
  · have hheader := h.resolve_left hfound
    have hkept : hasHeader device (updated k w.text t)=false := by
      rw [updated]
      split
      · rw [hasHeader_substituted hk w.noSpace,hheader]
      · rw [appended_eq hheader,hheader]
    have hleft : updated key v.text (updated k w.text t)=updated k w.text t := by
      rw [updated,if_neg (ne_of_eq_of_ne hsame hfound),appended_eq hkept]
    have hright : updated key v.text t=t := by
      rw [updated,if_neg hfound,appended_eq hheader]
    rw [hleft,hright]

end Updates

section Template

variable {i j : Identity} {x : Place} {l t : Text}

/-- The placeholders and the lines of the places fit together. -/
theorem checked_places : Checked (places.map Place.placeholder) (places.map Place.line) :=
  ⟨by decide +kernel,by decide +kernel,by decide +kernel,by decide +kernel,by decide +kernel⟩

/-- Each place is a name in front of a placeholder without white space, and its
line is cut between them. -/
theorem checked_place : ∀ x∈places,IsName x.key ∧ x.placeholder.any isSpace=false ∧
    separated (places.map Place.placeholder) x.line=true ∧
      before x.line=x.key++[' ','=',' '] ∧ after x.line=[] := by decide +kernel

/-- The keys of the places are names. -/
theorem isName_of_mem (hx : x∈places) : IsName x.key := (checked_place x hx).1

/-- A plain text has no mark of a placeholder. -/
theorem mark_notMem (v : PlainText) : '@'∉v.text := fun h =>
  absurd (List.all_eq_true.mp v.plain _ h) (by decide)

/-- No value of the identity contains a placeholder. -/
theorem noLaterPlaceholder (i : Identity) : NoLaterPlaceholder (templateBindings i) := by
  have hplain : ∀ c∈templateBindings i,'@'∉c.2 := by
    simp only [templateBindings,List.forall_mem_cons]
    exact ⟨mark_notMem _,mark_notMem _,mark_notMem _,fun _ h => absurd h List.not_mem_nil⟩
  refine List.pairwise_of_forall_mem_list fun c hc d hd hi => hplain c hc ?_
  exact hi.subset (checked_places.mark d.1 (List.mem_map_of_mem (f:=Prod.fst) hd))

/-- The line of a place is its placeholder behind the key. -/
theorem parts_line (hx : x∈places) :
    separated (places.map Place.placeholder) x.line=true ∧
      before x.line=x.key++[' ','=',' '] ∧ after x.line=[] := (checked_place x hx).2.2

/-- A key with a text behind it. -/
theorem pairLine_eq (key value : Text) : pairLine key value=key++[' ','=',' ']++value++[] := by
  rw [List.append_nil,List.append_assoc]
  rfl

/-- A place gets its value. -/
theorem substituteEach_line (hx : x∈places) :
    substituteEach id (templateBindings i) x.line=pairLine x.key (x.value i).text := by
  have hfits : Fits (templateBindings i) (places.map Place.line) := fits_of_checked checked_places rfl
  obtain ⟨hseparated,hbefore,hafter⟩ := parts_line hx
  have haround := around_of_separated checked_places.mark hseparated
  have hmem : (x.placeholder,(x.value i).text)∈templateBindings i :=
    List.mem_map_of_mem (f:=fun y : Place => (y.placeholder,(y.value i).text)) hx
  obtain ⟨left,right,hsplit⟩ := List.append_of_mem hmem
  have hplaceholders : places.map Place.placeholder=
      (left++(x.placeholder,(x.value i).text)::right).map Prod.fst := by
    rw [←hsplit]
    rfl
  rw [hbefore,hafter,hplaceholders] at haround
  rw [(hfits.renders (noLaterPlaceholder i) (List.mem_map_of_mem hx)).1]
  rw [hsplit] at hfits ⊢
  rw [Place.line,pairLine_eq,pairLine_eq]
  exact hfits.substitute_place haround

/-- An inert line is kept. -/
theorem substituteEach_inert (h : Inert l) : substituteEach id (templateBindings i) l=l := by
  refine substituteEach_of_absent fun b hb => ?_
  obtain ⟨x,hx,rfl⟩ := List.mem_map.mp (show b∈places.map fun y : Place =>
    (y.placeholder,(y.value i).text) from hb)
  rw [List.map_id]
  exact (h x hx).1

/-- Generating makes one line of each line. -/
theorem keepsLines_rendered (i : Identity) (h : IdentityTemplate t) :
    KeepsLines (fun l => [substituteEach id (templateBindings i) l]) t := by
  refine fun l hl => ⟨List.cons_ne_nil _ _,fun m hm => ?_⟩
  rw [List.mem_singleton.mp hm]
  rcases h.eachLine l hl with hinert|⟨x,hx,rfl⟩
  · rw [substituteEach_inert hinert]
    exact ⟨newline_notMem_of_mem_lines hl,id⟩
  · rw [substituteEach_line hx]
    exact ⟨newline_notMem_pairLine (isName_of_mem hx) (x.value i).noSpace,fun _ => pairLine_ne_nil⟩

/-- The lines of a generated file. -/
theorem lines_generated (i : Identity) (h : IdentityTemplate t) :
    lines (generated i t)=(lines t).map (substituteEach id (templateBindings i)) := by
  rw [generated,(edited_spec (keepsLines_rendered i h)).1,List.map_eq_flatMap]

/-- A placeholder has no white space. -/
theorem placeholder_noSpace (hx : x∈places) : ∀ c∈x.placeholder,isSpace c=false :=
  fun c hc => eq_false_of_ne_true (List.any_eq_false.mp (checked_place x hx).2.1 c hc)

/-- A written place is read back. -/
theorem item_line (hx : x∈places) : item x.line=.pair ⟨x.key,x.placeholder,true⟩ :=
  item_pairLine (isName_of_mem hx) (placeholder_noSpace hx)

/-- A template has the line of each place. -/
theorem IdentityTemplate.line_mem (h : IdentityTemplate t) (hx : x∈places) : x.line∈lines t := by
  have hfound := h.found x hx (some x.home)
  rw [if_pos rfl] at hfound
  obtain ⟨l,hl,hitem⟩ := List.mem_map.mp (mem_of_lastPair hfound)
  have hmatch := (keyLine_iff_item (isName_of_mem hx)).mpr ⟨_,hitem⟩
  rcases h.eachLine l hl with hinert|⟨y,hy,rfl⟩
  · exact absurd hmatch (ne_true_of_eq_false (hinert x hx).2)
  · rw [item_line hy] at hitem
    obtain ⟨hkey,hplaceholder,_⟩ := Pair.mk.inj (Item.pair.inj hitem)
    have hline : x.line=y.line := by rw [Place.line,Place.line,hkey,hplaceholder]
    rwa [hline]

/-- A generated file has each key of the identity. -/
theorem hasKey_generated (i : Identity) (h : IdentityTemplate t) (hx : x∈places) :
    hasKey x.key (generated i t)=true := by
  refine List.any_eq_true.mpr ⟨pairLine x.key (x.value i).text,?_,
    keyLine_pairLine_self (isName_of_mem hx) (x.value i).noSpace⟩
  rw [lines_generated i h]
  exact List.mem_map.mpr ⟨x.line,h.line_mem hx,substituteEach_line hx⟩

end Template

section Boots

/-- A second patch takes back the first. -/
theorem patched_last (i j : Identity) (t : Text) : patched j (patched i t)=patched j t := by
  have htarget : targetKey≠serialKey := by decide
  have htarget' : targetKey≠macKey := by decide
  have hserial : macKey≠serialKey := by decide
  have hplaced := (placed_updated isName_serialKey i.serial
    (substituted targetKey j.targetName.text t)).found
  calc patched j (patched i t)
      =updated macKey j.mac.text (updated serialKey j.serial.text (updated macKey i.mac.text
          (updated serialKey i.serial.text (substituted targetKey j.targetName.text t)))) := by
        rw [patched,patched,substituted_updated_comm isName_targetKey isName_macKey htarget',
          substituted_updated_comm isName_targetKey isName_serialKey htarget,
          substituted_substituted isName_targetKey i.targetName.noSpace j.targetName.noSpace]
    _=updated macKey j.mac.text (updated macKey i.mac.text (updated serialKey j.serial.text
          (updated serialKey i.serial.text (substituted targetKey j.targetName.text t)))) := by
        rw [updated_comm isName_serialKey isName_macKey hserial.symm _ _ hplaced]
    _=patched j t := by
        rw [updated_updated isName_macKey,updated_updated isName_serialKey,patched]

/-- An inert line is kept by a patch. -/
theorem identified_inert (i : Identity) {l : Text} (h : Inert l) : identified i l=l := by
  have hkept : ∀ x∈places,∀ v,replaced x.key v l=l := fun x hx v => replaced_of_not (h x hx).2
  rw [places,List.forall_mem_cons,List.forall_mem_cons,List.forall_mem_singleton] at hkept
  rw [identified,hkept.1,hkept.2.1,hkept.2.2]

/-- A patch puts a value of the identity in its place. -/
theorem identified_pairLine (i : Identity) {x : Place} (hx : x∈places) {v : Text}
    (hv : ∀ c∈v,isSpace c=false) :
    identified i (pairLine x.key v)=pairLine x.key (x.value i).text := by
  have hother : ∀ {key k : Text} (w : Text) {u : Text},(∀ c∈u,isSpace c=false) → IsName key →
      IsName k → k≠key → replaced k w (pairLine key u)=pairLine key u := fun w u hu hkey hk hne =>
    replaced_of_not (keyLine_pairLine hkey hk hu hne)
  have hsame : ∀ {key : Text} (w : Text),IsName key →
      replaced key w (pairLine key v)=pairLine key w := fun w hkey =>
    if_pos (keyLine_pairLine_self hkey hv)
  rw [places] at hx
  simp only [List.mem_cons,List.not_mem_nil,or_false] at hx
  rw [identified]
  rcases hx with rfl|rfl|rfl
  · have hw := i.targetName.noSpace
    rw [hsame _ isName_targetKey,hother _ hw isName_targetKey isName_serialKey (by decide),
      hother _ hw isName_targetKey isName_macKey (by decide)]
  · have hw := i.serial.noSpace
    rw [hother _ hv isName_serialKey isName_targetKey (by decide),hsame _ isName_serialKey,
      hother _ hw isName_serialKey isName_macKey (by decide)]
  · rw [hother _ hv isName_macKey isName_targetKey (by decide),
      hother _ hv isName_macKey isName_serialKey (by decide),hsame _ isName_macKey]

/-- A patch of a file with the attributes changes each line. -/
theorem patched_edited (i : Identity) {f : Text → Text} {t : Text}
    (hf : KeepsLines (fun l => [f l]) t)
    (hserial : hasKey serialKey (edited (fun l => [f l]) t)=true)
    (hmac : hasKey macKey (edited (fun l => [f l]) t)=true) :
    patched i (edited (fun l => [f l]) t)=edited (fun l => [identified i (f l)]) t := by
  have hserial' := (hasKey_substituted_of_ne isName_targetKey isName_serialKey
    i.targetName.noSpace (by decide) (edited (fun l => [f l]) t)).trans hserial
  have hmac' := ((hasKey_updated_of_ne isName_serialKey isName_macKey (by decide) i.serial _).trans
    (hasKey_substituted_of_ne isName_targetKey isName_macKey i.targetName.noSpace (by decide)
      (edited (fun l => [f l]) t))).trans hmac
  obtain ⟨htarget,hkeep⟩ := substituted_edited isName_targetKey i.targetName.noSpace hf
  obtain ⟨hserial'',hkeep'⟩ := substituted_edited isName_serialKey i.serial.noSpace hkeep
  obtain ⟨hmac'',_⟩ := substituted_edited isName_macKey i.mac.noSpace hkeep'
  rw [patched,updated,if_pos hmac',updated,if_pos hserial',htarget,hserial'',hmac'']
  rfl

/-- A patch of a generated file generates it anew. -/
theorem patched_generated (i j : Identity) {t : Text} (h : IdentityTemplate t) :
    patched j (generated i t)=generated j t := by
  have hkeys := fun x (hx : x∈places) => hasKey_generated i h hx
  rw [places,List.forall_mem_cons,List.forall_mem_cons,List.forall_mem_singleton] at hkeys
  refine (patched_edited j (keepsLines_rendered i h) hkeys.2.1 hkeys.2.2).trans ?_
  refine edited_congr fun l hl => congrArg (fun m => [m]) ?_
  rcases h.eachLine l hl with hinert|⟨x,hx,rfl⟩
  · rw [substituteEach_inert hinert,substituteEach_inert hinert,identified_inert j hinert]
  · rw [substituteEach_line hx,substituteEach_line hx,identified_pairLine j hx (x.value i).noSpace]

/-- A patch of the template itself generates the file. -/
theorem patched_template (i : Identity) {t : Text} (h : IdentityTemplate t) :
    patched i t=generated i t := by
  have hkeys : ∀ x∈places,hasKey x.key t=true := fun x hx =>
    List.any_eq_true.mpr ⟨x.line,h.line_mem hx,(keyLine_iff_item (isName_of_mem hx)).mpr
      ⟨_,item_line hx⟩⟩
  have hkeep : KeepsLines (fun l => [l]) t := fun l hl => ⟨List.cons_ne_nil _ _,fun m hm => by
    rw [List.mem_singleton.mp hm]
    exact ⟨newline_notMem_of_mem_lines hl,id⟩⟩
  have hself : edited (fun l => [l]) t=t := edited_eq_self fun _ _ => rfl
  rw [places,List.forall_mem_cons,List.forall_mem_cons,List.forall_mem_singleton] at hkeys
  obtain ⟨_,hserial,hmac⟩ := hkeys
  rw [←hself] at hserial hmac
  have hpatched := patched_edited i hkeep hserial hmac
  rw [hself] at hpatched
  refine hpatched.trans (edited_congr fun l hl => congrArg (fun m => [m]) ?_)
  rcases h.eachLine l hl with hinert|⟨x,hx,rfl⟩
  · rw [substituteEach_inert hinert,identified_inert i hinert]
  · rw [substituteEach_line hx,Place.line,identified_pairLine i hx (placeholder_noSpace hx)]

/-- Each setting of the identity has its place. -/
theorem exists_place (i : Identity) : ∀ x∈settings i,∃ y∈places,y.home=x.home ∧ y.key=x.key := by
  have hplace : ∀ y∈places,∃ z∈places,z.home=y.home ∧ z.key=y.key := fun y hy => ⟨y,hy,rfl,rfl⟩
  rw [places,List.forall_mem_cons,List.forall_mem_cons,List.forall_mem_singleton] at hplace
  rw [settings,List.forall_mem_cons,List.forall_mem_cons,List.forall_mem_singleton]
  exact hplace

/-- Values of other keys are wanted as they were. -/
theorem wanted_of_ne {i : Identity} {key : Text} (h : ∀ x∈settings i,key≠x.key)
    (before : Option Text → Text → Option Text) (s : Option Text) :
    wanted i before s key=before s key := by
  have hnone : (settings i).find? (fun x => decide (s=some x.home ∧ key=x.key))=none :=
    List.find?_eq_none.mpr fun x hx hmatch => h x hx (of_decide_eq_true hmatch).2
  rw [wanted,hnone]

/-- The values of a generated file. -/
theorem valueAt_generated (i : Identity) (c : ConfigFile) (h : IdentityTemplate c.text)
    (s : Option Text) (key : Text) :
    valueAt (generated i c.text) s key=wanted i (valueAt c.text) s key := by
  rw [←patched_template i h]
  by_cases hkey : ∃ x∈settings i,key=x.key
  · obtain ⟨x,hx,rfl⟩ := hkey
    obtain ⟨y,hy,hhome,hkey⟩ := exists_place i x hx
    have hpair := h.found y hy s
    rw [hhome,hkey] at hpair
    rw [wanted_of_mem hx,valueAt,pairAt_patched i c hx,valueAt,hpair]
    by_cases hs : s=some x.home
    · rw [if_pos hs,if_pos hs,Option.map_some,Option.some_or,replacePair,if_pos ⟨rfl,rfl⟩]
      rfl
    · rw [if_neg hs,if_neg hs,if_neg fun hand => hs hand.1]
      rfl
  · have hne : ∀ x∈settings i,key≠x.key := fun x hx he => hkey ⟨x,hx,he⟩
    rw [wanted_of_ne hne,valueAt,pairAt_patched_of_ne i c hne]
    rfl

/-- A boot with a template. -/
theorem lastTemplate_of_some (boots : List Boot) {b : Boot} {t : Text} (h : b.template=some t) :
    lastTemplate (boots++[b])=some t := by
  rw [lastTemplate,List.filterMap_append,List.filterMap_cons,h]
  exact List.getLast?_concat

/-- A boot without a template. -/
theorem lastTemplate_of_none (boots : List Boot) {b : Boot} (h : b.template=none) :
    lastTemplate (boots++[b])=lastTemplate boots := by
  rw [lastTemplate,List.filterMap_append,List.filterMap_cons,h]
  exact congrArg List.getLast? (List.append_nil _)

/-- A boot without a template patches the file. -/
theorem bootStep_of_none {b : Boot} (h : b.template=none) (config : Option Text) :
    bootStep config b=config.map (patched b.identity) := by
  rw [bootStep,h]
  cases config with
  | none => rfl
  | some t => rfl

/-- A boot with a template generates the file anew. -/
theorem bootStep_of_some {b : Boot} {t : Text} (h : b.template=some t) (config : Option Text) :
    bootStep config b=some (generated b.identity t) := by
  rw [bootStep,h]
  rfl

/-- The template of a run is one of its templates. -/
theorem mem_of_lastTemplate {boots : List Boot} {t : Text} (h : lastTemplate boots=some t) :
    ∃ x∈boots,x.template=some t :=
  List.mem_filterMap.mp (List.mem_of_getLast? h)

/-- A boot after others leaves what it would leave with the last template and
the first file. -/
theorem bootStep_bootStep (config : Option Text) (i : Identity) (template : Option Text) (b : Boot)
    (h : ∀ t,template=some t → IdentityTemplate t) (hb : b.template=none) :
    bootStep (bootStep config ⟨i,template⟩) b=bootStep config ⟨b.identity,template⟩ := by
  rw [bootStep_of_none hb]
  cases template with
  | none =>
    have hpatches : patched b.identity∘patched i=patched b.identity := by
      funext t
      rw [Function.comp_apply,patched_last]
    have hpatch : ∀ j,bootStep config ⟨j,none⟩=config.map (patched j) := fun j =>
      bootStep_of_none (b:=⟨j,none⟩) rfl config
    rw [hpatch,hpatch,Option.map_map,hpatches]
  | some t =>
    have hgenerate : ∀ j,bootStep config ⟨j,some t⟩=some (generated j t) := fun j =>
      bootStep_of_some (b:=⟨j,some t⟩) rfl config
    rw [hgenerate,hgenerate,Option.map_some,patched_generated i b.identity (h t rfl)]

/-- Any boots leave what one boot would leave of the first config.conf: the one
with the last identity and the last template. -/
theorem boots_leave_last (config : Option Text) (boots : List Boot) (b : Boot)
    (h : ∀ x∈boots++[b],∀ t,x.template=some t → IdentityTemplate t) :
    (boots++[b]).foldl bootStep config=
      bootStep config ⟨b.identity,lastTemplate (boots++[b])⟩ := by
  induction boots using List.reverseRecOn generalizing b with
  | nil =>
    rw [List.nil_append,List.foldl_cons,List.foldl_nil]
    cases hb : b.template with
    | none =>
      rw [bootStep_of_none hb,bootStep_of_none (lastTemplate_of_none [] hb)]
    | some t =>
      rw [bootStep_of_some hb,bootStep_of_some (lastTemplate_of_some [] hb)]
  | append_singleton init c ih =>
    have hinit : ∀ x∈init++[c],∀ t,x.template=some t → IdentityTemplate t := fun x hx =>
      h x (List.mem_append_left _ hx)
    rw [List.foldl_append,List.foldl_cons,List.foldl_nil]
    cases hb : b.template with
    | none =>
      rw [ih c hinit,lastTemplate_of_none _ hb]
      refine bootStep_bootStep config c.identity _ b (fun t ht => ?_) hb
      obtain ⟨x,hx,hxt⟩ := mem_of_lastTemplate ht
      exact hinit x hx t hxt
    | some t =>
      rw [bootStep_of_some hb,bootStep_of_some (lastTemplate_of_some _ hb)]

/-- A template with nothing but the identity. -/
def plainTemplate : Text :=
  "[client]\ntarget_name = @@TARGET_NAME@@\n[device]\nserial = @@SERIAL@@\nmac_address = @@MAC@@\n".toList

theorem identityTemplate_plain : IdentityTemplate plainTemplate := by
  have hlines : ∀ l∈lines plainTemplate,Inert l ∨ ∃ x∈places,l=x.line := by
    unfold plainTemplate Inert places targetKey serialKey macKey
    repeat rewrite [String.toList_ofList]
    decide +kernel
  have halone : ∀ x∈places,StandsAlone (some x.home) ⟨x.key,x.placeholder,true⟩ plainTemplate := by
    unfold plainTemplate
    rewrite [String.toList_ofList]
    decide +kernel
  exact ⟨hlines,fun x hx s => (halone x hx).pairAt_eq s⟩

/-- The identity of another board. -/
def otherBoard : Identity :=
  ⟨⟨"rpi4-00ffee00".toList,by decide⟩,⟨"00ffee00".toList,by decide⟩,
    ⟨"dc:a6:32:00:00:02".toList,by decide⟩⟩

/-- The boots of a card in the other board. -/
def otherBoots : List Boot := [⟨otherBoard,some plainTemplate⟩,⟨otherBoard,none⟩]

/-- The boot of the card in a board that boots a slot without template. -/
def movedBoot : Boot := ⟨rpi4,none⟩

theorem boots_leave_last_movedCard :
    (otherBoots++[movedBoot]).foldl bootStep none=bootStep none ⟨rpi4,some plainTemplate⟩ := by
  have htemplates : ∀ x∈otherBoots++[movedBoot],
      x.template=some plainTemplate ∨ x.template=none := by
    intro x hx
    simp only [otherBoots,List.cons_append,List.nil_append,List.mem_cons,List.not_mem_nil,
      or_false] at hx
    rcases hx with rfl|rfl|rfl
    · exact Or.inl rfl
    · exact Or.inr rfl
    · exact Or.inr rfl
  have hlast : lastTemplate (otherBoots++[movedBoot])=some plainTemplate := rfl
  have hboots := boots_leave_last none otherBoots movedBoot fun x hx t ht =>
    (htemplates x hx).elim
      (fun hsome => Option.some.inj (hsome.symm.trans ht) ▸ identityTemplate_plain)
      fun hnone => absurd (hnone.symm.trans ht) (Option.some_ne_none t).symm
  rw [hlast] at hboots
  exact hboots

end Boots

end Greenhouse.IdentityBoots
