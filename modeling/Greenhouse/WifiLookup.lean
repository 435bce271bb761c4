import Greenhouse.WifiSetup

/-!
# The profile that a Wi-Fi setup updates

The SSID reaches the comparison with its escape sequences processed, while
list_networks prints the SSIDs with backslashes and double quotes escaped, and
SSIDs that look like numbers are compared as numbers. The profile that is
found is written to; so the run is right exactly when the comparison finds the
first profile that has the SSID, or none when no profile has it.
-/

namespace Greenhouse.WifiLookup

open ShellText AwkText WpaSupplicant WifiSetup

variable {σ : Type}

/-- The networks in memory. -/
def networks (w : Supplicant σ) (s : σ) : List Network := (w.profiles s).map Profile.network

/-- The SSID and all variables of a network. -/
def contents (n : Network) : Text×(Text → Option Text) := (n.ssid,n.settings)

/-- The network at a place has the credentials, and at every other place stands
what stood there before. -/
structure UpdatesAt (place : ℕ) (ssid password : Text) (before after : List Network) : Prop where
  written : ∃ n,after[place]? =some n ∧ n.ssid=ssid ∧
    n.settings "psk".toList=some (quoted password)
  others : ∀ j,j≠place → after[j]?.map contents=before[j]?.map contents

/-- The credentials are written to the first network whose SSID is the argument,
or to a new one behind all others when there is none. -/
def UpdatesRightProfile (ssid password : Text) (before after : List Network) : Prop :=
  UpdatesAt (before.findIdx fun n => decide (n.ssid=ssid)) ssid password before after

/-- When the argument is looked up right among the SSIDs. -/
inductive LooksUpRight (awk : Awk) (ssid : Text) : List Text → Prop
  /-- A network has the SSID. -/
  | found {left right : List Text} (first : ssid∉left) (plain : IsPlain ssid)
    (same : awk.numeric ssid=true → awk.sameNumber ssid ssid=true)
    (earlier : ∀ x∈left,awk.equalNumbers x ssid=false) :
    LooksUpRight awk ssid (left++ssid::right)
  /-- No network has it. -/
  | absent {ssids : List Text} (new : ssid∉ssids)
    (numbers : ∀ x∈ssids,awk.equalNumbers x (awk.assigned ssid)=false)
    (texts : ∀ x∈ssids,escaped x=awk.assigned ssid → awk.numeric (awk.assigned ssid)=true) :
    LooksUpRight awk ssid ssids

/-- The first place that satisfies a condition. -/
theorem findIdx_append_cons_iff {α : Type*} {p : α → Bool} {left right : List α} {a : α} :
    (left++a::right).findIdx p=left.length ↔ p a=true ∧ ∀ x∈left,p x=false := by
  induction left with
  | nil =>
    rw [List.nil_append,List.findIdx_cons]
    cases p a with
    | true => exact iff_of_true rfl ⟨rfl,fun x hx => absurd hx List.not_mem_nil⟩
    | false => exact iff_of_false (Nat.succ_ne_zero _) fun h => absurd h.1 Bool.false_ne_true
  | cons x left ih =>
    rw [List.cons_append,List.findIdx_cons,List.forall_mem_cons,List.length_cons]
    cases p x with
    | true => exact iff_of_false (Nat.succ_ne_zero _).symm fun h => absurd h.2.1.symm Bool.false_ne_true
    | false =>
      rw [cond_false,Nat.add_right_cancel_iff,ih]
      exact and_congr_right fun _ => (and_iff_right rfl).symm

/-- A condition that is first met by a value is first met where the value is
first found. -/
theorem findIdx_eq_of_getElem? {α : Type*} [DecidableEq α] {p : α → Bool} {l : List α} {a : α}
    (h : l[l.findIdx p]? =some a) : l.findIdx p=l.findIdx fun x => decide (x=a) := by
  have hp : p a=true := List.findIdx_of_getElem?_eq_some h
  obtain ⟨hlt,ha⟩ := List.getElem?_eq_some_iff.mp h
  have hmem : a∈l := ha ▸ List.getElem_mem hlt
  have hexact : l.findIdx (fun x => decide (x=a))<l.length :=
    List.findIdx_lt_length_of_exists ⟨a,hmem,decide_eq_true rfl⟩
  have hfirst := of_decide_eq_true (List.findIdx_getElem (w:=hexact))
  refine le_antisymm (Nat.le_of_not_lt fun hl => ?_) (Nat.le_of_not_lt fun hl => ?_)
  · have hno := List.not_of_lt_findIdx hl
    rw [hfirst] at hno
    exact absurd hp (ne_true_of_eq_false hno)
  · have hno := List.not_of_lt_findIdx hl
    rw [ha] at hno
    exact absurd (decide_eq_true rfl) (ne_true_of_eq_false hno)

/-- The comparison finds the place of the SSID exactly when it looks it up right. -/
theorem findIdx_finds_iff {awk : Awk} (h : awk.Documented) {ssid : Text} {ssids : List Text} :
    ssids.findIdx (awk.finds ssid)=ssids.findIdx (fun x => decide (x=ssid)) ↔
      LooksUpRight awk ssid ssids := by
  by_cases hm : ssid∈ssids
  · obtain ⟨left,right,rfl,hfirst⟩ := List.eq_append_cons_of_mem hm
    have hexact : ∀ {left right : List Text},ssid∉left →
        (left++ssid::right).findIdx (fun x => decide (x=ssid))=left.length := fun hfirst =>
      findIdx_append_cons_iff.mpr ⟨decide_eq_true rfl,fun x hx =>
        decide_eq_false fun he => hfirst (he ▸ hx)⟩
    have hleft : (∀ x∈left,awk.equalNumbers x ssid=false) → IsPlain ssid →
        ∀ x∈left,awk.finds ssid x=false := fun hearlier hp x hx =>
      (finds_of_isPlain h hp fun he => hfirst (he ▸ hx)).trans (hearlier x hx)
    rw [hexact hfirst,findIdx_append_cons_iff,finds_self_iff h]
    constructor
    · rintro ⟨⟨hplain,hsame⟩,hearlier⟩
      refine .found hfirst hplain hsame fun x hx => ?_
      rw [←finds_of_isPlain h hplain fun he => hfirst (he ▸ hx)]
      exact hearlier x hx
    · intro hlooks
      generalize hssids : left++ssid::right=ssids at hlooks
      cases hlooks with
      | @found left' right' hfirst' hplain hsame hearlier =>
        have hlength : left.length=left'.length := by rw [←hexact hfirst,hssids,hexact hfirst']
        obtain rfl : left=left' := (List.append_inj hssids hlength).1
        exact ⟨⟨hplain,hsame⟩,hleft hearlier hplain⟩
      | absent hnew =>
        rw [←hssids] at hnew
        exact absurd hm hnew
  · have hexact : ssids.findIdx (fun x => decide (x=ssid))=ssids.length :=
      List.findIdx_eq_length.mpr fun x hx => decide_eq_false fun he => hm (he ▸ hx)
    rw [hexact,List.findIdx_eq_length]
    constructor
    · intro hnone
      refine .absent hm (fun x hx => ?_) fun x hx he => ?_
      · exact eq_false_of_ne_true fun hn =>
          ne_true_of_eq_false (hnone x hx) ((finds_iff h).mpr (Or.inl hn))
      · refine eq_true_of_ne_false fun hn => ?_
        exact ne_true_of_eq_false (hnone x hx) ((finds_iff h).mpr (Or.inr ⟨he,hn⟩))
    · intro hlooks x hx
      cases hlooks with
      | found => exact absurd (List.mem_append_right _ List.mem_cons_self) hm
      | absent _ hnumbers htexts =>
        refine eq_false_of_ne_true fun hf => ?_
        rcases (finds_iff h).mp hf with hn|⟨he,hn⟩
        · exact ne_true_of_eq_false (hnumbers x hx) hn
        · exact absurd (htexts x hx he) (ne_true_of_eq_false hn)

section Lookup

variable {w : Supplicant σ} {awk : Awk} {s : σ} {ssid password : Text}

/-- A printed printable text has neither tabs nor newlines. -/
theorem notMem_escaped {t : Text} (h : t.all isPrintable=true) : '\t'∉escaped t ∧ '\n'∉escaped t := by
  have hmem : ∀ c,isPrintable c=false → c≠ '\\' → c∉escaped t := by
    intro c hc hb hm
    obtain ⟨d,hd,hcd⟩ := List.mem_flatMap.mp hm
    have hprintable := List.all_eq_true.mp h d hd
    unfold escapedChar at hcd
    split at hcd
    · rcases List.mem_cons.mp hcd with he|hcd
      · exact hb he
      · rw [List.mem_singleton.mp hcd,hprintable] at hc
        cases hc
    · rw [List.mem_singleton.mp hcd,hprintable] at hc
      cases hc
  exact ⟨hmem _ (by decide) (by decide),hmem _ (by decide) (by decide)⟩

/-- The lookup finds the number of the first profile whose printed SSID equals
the argument. -/
theorem lookup_eq (awk : Awk) (ssid : Text) (hd : Documented w)
    (hp : ∀ p∈w.profiles s,p.network.ssid.all isPrintable=true)
    (ha : rejected (w.reply s .listNetworks)=false) :
    lookup awk ssid (w.reply s .listNetworks)=
      (((w.profiles s).find? fun p => awk.finds ssid p.network.ssid).map Profile.id).getD [] := by
  obtain ⟨header,rest,hheader,hrest,hreply⟩ := hd.listing s ha hp
  have hid : ∀ p∈w.profiles s,'\t'∉p.id ∧ '\n'∉p.id := by
    intro p hp
    have hdigits := List.all_eq_true.mp (hd.digits s p hp).2
    exact ⟨fun hm => absurd (hdigits _ hm) (by decide),fun hm => absurd (hdigits _ hm) (by decide)⟩
  have hlines : lines (w.reply s .listNetworks)=header::(w.profiles s).map fun p =>
      p.id++ '\t'::(escaped p.network.ssid++ '\t'::rest p) := by
    rw [hreply]
    refine lines_unlines (List.forall_mem_cons.mpr ⟨hheader,fun l hl => ?_⟩)
    obtain ⟨p,hm,rfl⟩ := List.mem_map.mp hl
    simp only [List.mem_append,List.mem_cons,not_or]
    exact ⟨(hid p hm).2,by decide,(notMem_escaped (hp p hm)).2,by decide,hrest p⟩
  have hfound : foundIds awk ssid (w.reply s .listNetworks)=
      ((w.profiles s).filter fun p => awk.finds ssid p.network.ssid).map Profile.id := by
    rw [foundIds,hlines,List.drop_one,List.tail_cons,List.filter_map,List.map_map]
    have hfilter : (w.profiles s).filter ((fun l => awk.equal (tabField 2 l) (awk.assigned ssid))∘
        fun p => p.id++ '\t'::(escaped p.network.ssid++ '\t'::rest p))=
          (w.profiles s).filter fun p => awk.finds ssid p.network.ssid := by
      refine List.filter_congr fun p hm => ?_
      dsimp only [Function.comp_apply]
      rw [tabField_succ 0 _ (hid p hm).1,tabField_one _ (notMem_escaped (hp p hm)).1]
      rfl
    rw [hfilter]
    exact List.map_congr_left fun p hm => tabField_one _ (hid p (List.mem_of_mem_filter hm)).1
  rw [lookup,hfound,←List.head?_filter]
  cases hps : (w.profiles s).filter fun p => awk.finds ssid p.network.ssid with
  | nil => rfl
  | cons p ps =>
    have hm : p∈w.profiles s := List.mem_of_mem_filter (hps ▸ List.mem_cons_self)
    have hone : unlines (((p::ps).map Profile.id).take 1)=p.id++['\n'] := by
      rw [List.map_cons,List.take_succ_cons,List.take_zero,unlines,List.flatMap_singleton]
    rw [hone,substitution_line (hid p hm).2]
    rfl

/-- The commands go to the profile that the comparison finds, or to the new one
behind all others, and no other place of the list has changed before. -/
theorem target_place (hd : Documented w)
    (hp : ∀ p∈w.profiles s,p.network.ssid.all isPrintable=true)
    (ha : rejected (w.reply s .listNetworks)=false) {s' : σ} {before : List (Command×Text)}
    {id : Text} (h : Prepared w awk ssid s s' before id) {k : ℕ}
    (hk : (w.profiles s).findIdx (fun p => awk.finds ssid p.network.ssid)=k) :
    (∃ q,(w.profiles s')[k]? =some q ∧ q.id=id) ∧
      (∀ j≠k,(w.profiles s')[j]? =(w.profiles s)[j]?) := by
  obtain ⟨added,hprofiles,_,hcase⟩ := h.profiles hd
  have hfind : (w.profiles s).find? (fun p => awk.finds ssid p.network.ssid)=(w.profiles s)[k]? := by
    rw [List.find?_eq_getElem?_findIdx,hk]
  have hlookup := lookup_eq awk ssid hd hp ha
  rw [hfind] at hlookup
  rw [hprofiles]
  rcases hcase with ⟨hne,rfl,rfl⟩|⟨hnone,p,rfl,hid⟩
  · rw [List.append_nil]
    refine ⟨?_,fun _ _ => rfl⟩
    cases hq : (w.profiles s)[k]? with
    | none =>
      rw [hq] at hlookup
      exact absurd hlookup hne
    | some q =>
      rw [hq] at hlookup
      exact ⟨q,rfl,hlookup.symm⟩
  · have hlength : (w.profiles s).length=k := by
      refine le_antisymm (Nat.le_of_not_lt fun hlt => ?_) (hk ▸ List.findIdx_le_length)
      have hq := List.getElem?_eq_getElem hlt
      rw [hq,hnone] at hlookup
      exact (hd.digits s _ (List.getElem_mem hlt)).1 hlookup.symm
    refine ⟨⟨p,?_,hid⟩,fun j hj => ?_⟩
    · rw [←hlength]
      exact List.getElem?_concat_length
    · rcases Nat.lt_or_gt_of_ne (hlength ▸ hj : j≠(w.profiles s).length) with hlt|hgt
      · exact List.getElem?_append_left hlt
      · rw [List.getElem?_eq_none (Nat.le_of_lt hgt),List.getElem?_eq_none]
        rw [List.length_append,List.length_singleton]
        exact hgt

/-- A successful run writes the credentials to the profile that the comparison
finds, or to a new one. -/
theorem updatesAt_found (hd : Documented w)
    (hp : ∀ p∈w.profiles s,p.network.ssid.all isPrintable=true)
    (h : (wifiSetup w awk [ssid,password] s).Succeeds) :
    UpdatesAt ((w.profiles s).findIdx fun p => awk.finds ssid p.network.ssid) ssid password
      (networks w s) (networks w (wifiSetup w awk [ssid,password] s).state) := by
  obtain ⟨_,_,s',before,id,hargs,hprepared,hrun⟩ := exists_prepared h.1
  cases hargs
  have haccepted := h.2
  rw [hrun] at haccepted ⊢
  have hlisted : rejected (w.reply s .listNetworks)=false := by
    cases hprepared with
    | found => exact haccepted _ List.mem_cons_self
    | added => exact haccepted _ List.mem_cons_self
  obtain ⟨⟨q,hq,hid⟩,hsame⟩ := target_place hd hp hlisted hprepared rfl
  have hnetworks : networks w (configureRun w s' before id ssid password).state=
      (w.profiles s').map (configured id ssid password) :=
    (exchange_configure hd fun x hx => haccepted x (List.mem_append_right _ hx)).2
  have hpsk : "psk".toList≠"priority".toList := by decide
  rw [hnetworks]
  constructor
  · refine ⟨_,by rw [List.getElem?_map,hq]; rfl,?_,?_⟩
    · rw [configured,if_pos hid]
    · rw [configured,if_pos hid]
      dsimp only
      rw [if_neg hpsk,if_pos rfl]
  · intro j hj
    rw [networks,List.getElem?_map,List.getElem?_map,hsame j hj]
    cases hr : (w.profiles s)[j]? with
    | none => rfl
    | some r =>
      have hr' : (w.profiles s')[j]? =some r := (hsame j hj).trans hr
      have hne : r.id≠id := by
        intro he
        have hlt : j<((w.profiles s').map Profile.id).length := by
          rw [List.length_map]
          exact (List.getElem?_eq_some_iff.mp hr').1
        refine hj ((List.getElem?_inj hlt (hd.ids s')).mp ?_)
        rw [List.getElem?_map,List.getElem?_map,hr',hq,Option.map_some,Option.map_some,he,hid]
      rw [Option.map_some,Option.map_some,Option.map_some,Option.map_some,configured,if_neg hne]
      rfl

/-- Credentials are written to one place only, unless the SSID stands there
already. -/
theorem UpdatesAt.place_eq {before after : List Network} {i k : ℕ}
    (hi : UpdatesAt i ssid password before after) (hk : UpdatesAt k ssid password before after)
    (hne : k≠i) : ∃ n,before[k]? =some n ∧ n.ssid=ssid := by
  obtain ⟨n,hn,hssid,_⟩ := hk.written
  have hsame := hi.others k hne
  rw [hn,Option.map_some] at hsame
  obtain ⟨m,hm,he⟩ := Option.map_eq_some_iff.mp hsame.symm
  exact ⟨m,hm,(Prod.mk.inj he).1.trans hssid⟩

/-- A successful run updates the right profile exactly when it looks the SSID
up right. -/
theorem updatesRightProfile_iff (w : Supplicant σ) (awk : Awk) (s : σ) (ssid password : Text)
    (hd : Documented w) (ha : awk.Documented)
    (hp : ∀ p∈w.profiles s,p.network.ssid.all isPrintable=true)
    (h : (wifiSetup w awk [ssid,password] s).Succeeds) :
    UpdatesRightProfile ssid password (networks w s)
        (networks w (wifiSetup w awk [ssid,password] s).state) ↔
      LooksUpRight awk ssid ((networks w s).map Network.ssid) := by
  have hfinds : ((networks w s).map Network.ssid).findIdx (awk.finds ssid)=
      (w.profiles s).findIdx fun p => awk.finds ssid p.network.ssid := by
    rw [networks,List.map_map,List.findIdx_map]
    rfl
  have hexact : ((networks w s).map Network.ssid).findIdx (fun x => decide (x=ssid))=
      (networks w s).findIdx fun n => decide (n.ssid=ssid) := List.findIdx_map _ _ _
  have hfound := updatesAt_found hd hp h
  rw [←findIdx_finds_iff ha,hexact,UpdatesRightProfile]
  rw [←hfinds] at hfound
  constructor
  · intro hright
    by_contra hne
    obtain ⟨n,hn,hssid⟩ := hright.place_eq hfound hne
    have hat : ((networks w s).map Network.ssid)[((networks w s).map Network.ssid).findIdx
        (awk.finds ssid)]? =some ssid := by
      rw [List.getElem?_map,hn,Option.map_some,hssid]
    exact hne ((findIdx_eq_of_getElem? hat).trans hexact)
  · intro he
    rw [←he]
    exact hfound

/-- A device that knows two networks, one of them with a number for a name. -/
def numberAndHotspot : Table :=
  ⟨[⟨"123".toList,fun _ => none,true⟩,⟨"hotspot".toList,fun _ => none,true⟩],[]⟩

/-- The password of the network hotspot is changed. -/
theorem updatesRightProfile_iff_hotspot :
    UpdatesRightProfile "hotspot".toList "password".toList (networks table numberAndHotspot)
        (networks table (wifiSetup table digitAwk ["hotspot".toList,"password".toList]
          numberAndHotspot).state) := by
  have hlooks : LooksUpRight digitAwk "hotspot".toList (["123".toList]++"hotspot".toList::[]) :=
    .found (by decide +kernel) (by decide +kernel) (by decide +kernel) (by decide +kernel)
  exact (updatesRightProfile_iff table digitAwk numberAndHotspot "hotspot".toList "password".toList
    documented_table documented_digitAwk (by decide +kernel) (by decide +kernel)).mpr hlooks

/-- The credentials for a new network 0123 are written to the network 123. -/
theorem number_overwritten :
    Documented table ∧ digitAwk.Documented ∧
      (∀ p∈table.profiles numberAndHotspot,p.network.ssid.all isPrintable=true) ∧
      (wifiSetup table digitAwk ["0123".toList,"password".toList] numberAndHotspot).Succeeds ∧
      (networks table (wifiSetup table digitAwk ["0123".toList,"password".toList]
        numberAndHotspot).state).map Network.ssid=["0123".toList,"hotspot".toList] ∧
      ¬UpdatesRightProfile "0123".toList "password".toList (networks table numberAndHotspot)
        (networks table (wifiSetup table digitAwk ["0123".toList,"password".toList]
          numberAndHotspot).state) := by
  have hssids : (networks table (wifiSetup table digitAwk ["0123".toList,"password".toList]
      numberAndHotspot).state).map Network.ssid=["0123".toList,"hotspot".toList] := by
    decide +kernel
  refine ⟨documented_table,documented_digitAwk,by decide +kernel,by decide +kernel,hssids,?_⟩
  intro h
  have hplace : (networks table numberAndHotspot).findIdx
      (fun n => decide (n.ssid="0123".toList))=2 := by decide +kernel
  obtain ⟨n,hn,_⟩ := h.written
  rw [hplace] at hn
  have hlength := congrArg List.length hssids
  rw [List.length_map] at hlength
  exact absurd (List.getElem?_eq_some_iff.mp hn).1 (by rw [hlength]; decide)

end Lookup

end Greenhouse.WifiLookup
