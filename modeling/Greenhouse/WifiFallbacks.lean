import Greenhouse.TemporalRuns
import Greenhouse.WifiSetup

/-!
# The other networks during a Wi-Fi setup

The selection of a network disables all others, the enabling concerns the
selected one only, and the saving writes the flags as they are. So a run leaves
exactly one network enabled in the file, whether or not its variables have been
accepted, and it always ends with the message of success.
-/

namespace Greenhouse.WifiFallbacks

open ShellText AwkText WpaSupplicant WifiSetup TemporalRuns

variable {σ : Type}

/-- The command assigns a variable of a network. -/
def isSetNetwork : Command → Bool
  | .setNetwork _ _ _ => true
  | _ => false

/-- Some set_network command of the run is rejected. -/
def SetRejected (r : Run σ) : Prop :=
  ∃ x∈r.exchanges,isSetNetwork x.1=true ∧ rejected x.2=true

instance (r : Run σ) : Decidable (SetRejected r) :=
  inferInstanceAs (Decidable (∃ x∈r.exchanges,isSetNetwork x.1=true ∧ rejected x.2=true))

/-- The enabled networks in memory. -/
def enabledNetworks (w : Supplicant σ) (s : σ) : List Network :=
  ((w.profiles s).map Profile.network).filter Network.enabled

/-- The run has left the file and the enabled networks as they were, and it
does not report success. -/
structure LeavesAsWas (w : Supplicant σ) (s : σ) (r : Run σ) : Prop where
  saved : w.saved r.state=w.saved s
  enabled : enabledNetworks w r.state=enabledNetworks w s
  noSuccess : ¬r.reportsSuccess

/-- A successful run of wifi-setup as a step. -/
def setupStep (w : Supplicant σ) (awk : Awk) (s : σ) (args : List Text) : Option σ :=
  if (wifiSetup w awk args s).Succeeds then some (wifiSetup w awk args s).state else none

/-- Every profile that is enabled before the run and is not the one that it
configures is in its place of the file afterwards, and still enabled. -/
def KeepsFallbacks (w : Supplicant σ) (awk : Awk) (s : σ) (args : List Text) : Prop :=
  ∀ (i : ℕ) (p : Profile),(w.profiles s)[i]? =some p → p.network.enabled=true →
    p.id≠(wifiSetup w awk args s).networkId →
    (w.saved (wifiSetup w awk args s).state)[i]? =some p.network

/-- No profile but the one that the run configures is enabled before it. -/
def OnlyTarget (w : Supplicant σ) (awk : Awk) (s : σ) (args : List Text) : Prop :=
  ∀ p∈w.profiles s,p.network.enabled=true → p.id=(wifiSetup w awk args s).networkId

instance (w : Supplicant σ) (awk : Awk) (s : σ) (args : List Text) :
    Decidable (OnlyTarget w awk s args) :=
  inferInstanceAs (Decidable (∀ p∈w.profiles s,p.network.enabled=true →
    p.id=(wifiSetup w awk args s).networkId))

/-- An enabled network. -/
def enabledNetwork (ssid : Text) : Network := ⟨ssid,fun _ => none,true⟩

/-- The networks of the image: the campus and a hotspot. -/
def campusAndHotspot : Table :=
  ⟨[enabledNetwork "uofm-secure".toList,enabledNetwork "hotspot".toList],
    [enabledNetwork "uofm-secure".toList,enabledNetwork "hotspot".toList]⟩

section Rejection

variable {w : Supplicant σ} {awk : Awk} {s : σ} {args : List Text}

/-- A run that ends early has sent no set_network command. -/
theorem ending_of_setRejected (h : SetRejected (wifiSetup w awk args s)) :
    (wifiSetup w awk args s).ending=.sent := by
  obtain ⟨x,hx,hset,_⟩ := h
  rcases args with _|⟨ssid,_|⟨password,_|⟨extra,rest⟩⟩⟩
  · exact absurd hx List.not_mem_nil
  · exact absurd hx List.not_mem_nil
  · dsimp only [wifiSetup] at hx ⊢
    split at hx
    · exact absurd hx List.not_mem_nil
    · rename_i hping
      rw [if_neg hping]
      split at hx
      · rename_i hnone
        rw [if_pos hnone]
        split at hx
        · rcases List.mem_cons.mp hx with rfl|hx
          · cases hset
          · obtain rfl := List.mem_singleton.mp hx
            cases hset
        · rename_i hblock
          rw [if_neg hblock]
          rfl
      · rename_i hfound
        rw [if_neg hfound]
        rfl
  · exact absurd hx List.not_mem_nil

/-- A run that has sent its commands reports success. -/
theorem reportsSuccess_of_sent {r : Run σ} (h : r.ending=.sent) : r.reportsSuccess := by
  rw [Run.reportsSuccess,h]
  exact ⟨rfl,List.mem_cons_of_mem _ List.mem_cons_self⟩

/-- Whatever wpa_supplicant and awk do, no run with a rejected set_network
command leaves the device as it was. -/
theorem leavesAsWas_iff (w : Supplicant σ) (awk : Awk) (args : List Text) (s : σ) :
    (SetRejected (wifiSetup w awk args s) → LeavesAsWas w s (wifiSetup w awk args s)) ↔
      ¬SetRejected (wifiSetup w awk args s) := by
  constructor
  · intro h hr
    exact (h hr).noSuccess (reportsSuccess_of_sent (ending_of_setRejected hr))
  · exact fun hno hr => absurd hr hno

/-- A password that is too short is rejected; the two networks of the image are
disabled in the file all the same, and the run reports success. -/
theorem short_password_not_asWas :
    (table.saved (wifiSetup table digitAwk ["cafe".toList,"short".toList] campusAndHotspot).state).map
        Network.enabled=[false,false,true] ∧
      ¬(SetRejected (wifiSetup table digitAwk ["cafe".toList,"short".toList] campusAndHotspot) →
        LeavesAsWas table campusAndHotspot
          (wifiSetup table digitAwk ["cafe".toList,"short".toList] campusAndHotspot)) := by
  have hflags : (table.saved
      (wifiSetup table digitAwk ["cafe".toList,"short".toList] campusAndHotspot).state).map
        Network.enabled=[false,false,true] := by decide +kernel
  have hrejected : SetRejected
      (wifiSetup table digitAwk ["cafe".toList,"short".toList] campusAndHotspot) := by decide +kernel
  refine ⟨hflags,fun h => ?_⟩
  rw [(h hrejected).saved] at hflags
  exact absurd hflags (by decide)

end Rejection

section Flags

variable {w : Supplicant σ} {awk : Awk} {s : σ} {args : List Text} {id ssid password : Text}

/-- set_network keeps the numbers of the profiles, whether it is accepted or not. -/
theorem ids_setNetwork (hd : Documented w) (i name value : Text) :
    (w.profiles (w.next s (.setNetwork i name value))).map Profile.id=
      (w.profiles s).map Profile.id := by
  cases h : rejected (w.reply s (.setNetwork i name value)) with
  | true => rw [(hd.rejects _ _ h).1]
  | false =>
    rw [(hd.assigns _ _ _ _ h).1,List.map_map]
    rfl

/-- enable_network keeps the flags when only its network is enabled. -/
theorem flags_enableNetwork (hd : Documented w) (s : σ)
    (h : ∀ p∈w.profiles s,p.network.enabled=decide (p.id=id)) :
    ((w.profiles (w.next s (.enableNetwork id))).map Profile.network).map Network.enabled=
      (w.profiles s).map fun p => decide (p.id=id) := by
  rw [List.map_map]
  cases hr : rejected (w.reply s (.enableNetwork id)) with
  | true =>
    rw [(hd.rejects _ _ hr).1]
    exact List.map_congr_left fun p hp => h p hp
  | false =>
    rw [(hd.enables _ _ hr).1,List.map_map]
    refine List.map_congr_left fun p hp => ?_
    dsimp only [Function.comp_apply,Profile.change,enabling]
    by_cases hid : p.id=id
    · rw [if_pos hid,decide_eq_true hid]
    · rw [if_neg hid,h p hp]

/-- When the selection and the saving are accepted, the file has the network of
the run enabled and no other, whatever happens to the other commands. -/
theorem flags_exchange (hd : Documented w)
    (h : ∀ x∈(exchange w s (configure id ssid password)).1,
      x.1=.selectNetwork id ∨ x.1=.saveConfig → rejected x.2=false) :
    (w.saved (exchange w s (configure id ssid password)).2).map Network.enabled=
      (w.profiles s).map fun p => decide (p.id=id) := by
  simp only [configure,exchange,List.forall_mem_cons] at h ⊢
  obtain ⟨_,_,_,hselect,_,hsave,_⟩ := h
  have hselected := (hd.selects _ id (hselect (Or.inl trivial))).1
  have hsaved := (hd.saves _ (hsave (Or.inr trivial))).2
  have hreload : ∀ t,w.saved (w.next t .reconfigure)=w.saved t := by
    intro t
    cases hr : rejected (w.reply t .reconfigure) with
    | true => exact (hd.rejects _ _ hr).2
    | false => exact (hd.reloads _ hr).2
  rw [hreload,hsaved,flags_enableNetwork hd,hselected,List.map_map]
  · have hids : ∀ ps : List Profile,ps.map ((fun p => decide (p.id=id))∘Profile.change (selecting id))=
        (ps.map Profile.id).map fun i => decide (i=id) := by
      intro ps
      rw [List.map_map]
      rfl
    rw [hids,ids_setNetwork hd,ids_setNetwork hd,ids_setNetwork hd,List.map_map]
    rfl
  · intro p hp
    rw [hselected] at hp
    obtain ⟨q,_,rfl⟩ := List.mem_map.mp hp
    rfl

/-- A run that gets its selection and its saving accepted leaves no other
network enabled in the file, also when its variables have been rejected. -/
theorem saved_flags_of_sent (hd : Documented w) (hsent : (wifiSetup w awk args s).ending=.sent)
    (h : ∀ x∈(wifiSetup w awk args s).exchanges,
      x.1=.selectNetwork (wifiSetup w awk args s).networkId ∨ x.1=.saveConfig →
        rejected x.2=false) :
    ∃ added : List Profile,(∀ p∈added,p.id=(wifiSetup w awk args s).networkId) ∧
      (w.saved (wifiSetup w awk args s).state).map Network.enabled=
        (w.profiles s++added).map fun p => decide (p.id=(wifiSetup w awk args s).networkId) := by
  obtain ⟨ssid,password,s',before,id,rfl,hprepared,hrun⟩ := exists_prepared hsent
  rw [hrun] at h ⊢
  obtain ⟨added,hprofiles,_,hadded⟩ := hprepared.profiles hd
  refine ⟨added,fun p hp => ?_,?_⟩
  · rcases hadded with ⟨_,rfl,_⟩|⟨_,q,rfl,hq⟩
    · exact absurd hp List.not_mem_nil
    · rw [List.mem_singleton.mp hp]
      exact hq
  · rw [←hprofiles]
    exact flags_exchange hd fun x hx => h x (List.mem_append_right _ hx)

/-- A successful run keeps the other networks enabled exactly when there is
none of them. -/
theorem keepsFallbacks_iff (hd : Documented w) (h : (wifiSetup w awk args s).Succeeds) :
    KeepsFallbacks w awk s args ↔ OnlyTarget w awk s args := by
  obtain ⟨added,_,hflags⟩ := saved_flags_of_sent hd h.1 fun x hx _ => h.2 x hx
  constructor
  · intro hkeeps p hp henabled
    by_contra hne
    obtain ⟨i,hi⟩ := List.mem_iff_getElem?.mp hp
    have hat := congrArg (fun flags => flags[i]?) hflags
    have hlen : i<(w.profiles s).length := (List.getElem?_eq_some_iff.mp hi).1
    rw [List.getElem?_map,hkeeps i p hi henabled hne,List.getElem?_map,
      List.getElem?_append_left hlen,hi,Option.map_some,Option.map_some,henabled,
      decide_eq_false hne] at hat
    cases hat
  · exact fun honly i p hi henabled hne =>
      absurd (honly p (List.mem_of_getElem? hi) henabled) hne

/-- Along every sequence of successful runs, the networks that are enabled
stay enabled exactly when each run finds no other network enabled than the one
that it configures. -/
theorem fallbacks_kept_iff (w : Supplicant σ) (awk : Awk) (s : σ) (runs : List (List Text))
    (hd : Documented w) :
    EachStep (setupStep w awk) (fun s args _ => KeepsFallbacks w awk s args) s runs ↔
      EachStep (setupStep w awk) (fun s args _ => OnlyTarget w awk s args) s runs := by
  have hiff : ∀ s args t,setupStep w awk s args=some t →
      (KeepsFallbacks w awk s args ↔ OnlyTarget w awk s args) := fun s args t hs =>
    keepsFallbacks_iff hd (Option.ite_none_right_eq_some.mp hs).1
  constructor
  · exact eachStep_of_invariant (I:=fun _ => True) (fun _ _ _ _ _ _ => trivial)
      (fun t args u _ hkeeps hs => (hiff t args u hs).mp hkeeps) trivial
  · exact eachStep_of_invariant (I:=fun _ => True) (fun _ _ _ _ _ _ => trivial)
      (fun t args u _ honly hs => (hiff t args u hs).mpr honly) trivial

/-- Both networks of the image are lost when a third one is set up. -/
theorem fallbacks_not_kept :
    ¬EachStep (setupStep table digitAwk) (fun s args _ => KeepsFallbacks table digitAwk s args)
      campusAndHotspot [["cafe".toList,"password".toList]] := by
  intro h
  have hsuccess : (wifiSetup table digitAwk ["cafe".toList,"password".toList]
      campusAndHotspot).Succeeds := by decide +kernel
  have hkept := (h _ (if_pos hsuccess)).1 0 ⟨numeral 0,enabledNetwork "uofm-secure".toList⟩ rfl rfl
    (by decide +kernel)
  have hflag : ((table.saved (wifiSetup table digitAwk ["cafe".toList,"password".toList]
      campusAndHotspot).state)[0]?).map Network.enabled=some false := by decide +kernel
  rw [hkept] at hflag
  exact absurd hflag (by decide)

/-- A device with one network, whose password is changed twice. -/
theorem fallbacks_kept_iff_oneNetwork :
    EachStep (setupStep table digitAwk) (fun s args _ => KeepsFallbacks table digitAwk s args)
      ⟨[enabledNetwork "hotspot".toList],[enabledNetwork "hotspot".toList]⟩
      [["hotspot".toList,"password1".toList],["hotspot".toList,"password2".toList]] :=
  (fallbacks_kept_iff table digitAwk _ _ documented_table).mpr (by decide +kernel)

end Flags

end Greenhouse.WifiFallbacks
