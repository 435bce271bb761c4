import Greenhouse.EventLog
import Greenhouse.KeyedTable
import Greenhouse.WifiFallbacks
import Greenhouse.WifiLookup

/-!
# The credentials after many Wi-Fi setups

A run that succeeds rewrites the first network that awk finds, or adds one, and
disables all others. While the SSIDs in use are told apart by awk, the networks
are a table of credentials with the SSID as its key, and a run is an upsert: the
file has the last password of each SSID, and only the last network is enabled.
-/

namespace Greenhouse.WifiCredentials

open ShellText AwkText WpaSupplicant WifiSetup WifiFallbacks WifiLookup TemporalRuns EventLog
  KeyedTable

variable {σ : Type}

/-- A network with the credentials of a run. -/
def given (ssid password : Text) (n : Network) : Network :=
  ⟨ssid,fun m => if m="priority".toList then some "100".toList
    else if m="psk".toList then some (quoted password) else n.settings m,true⟩

/-- A network that is not selected. -/
def disabled (n : Network) : Network := {n with enabled := false}

/-- What a successful run makes of the networks. -/
inductive Written (awk : Awk) (ssid password : Text) : List Network → List Network → Prop
  /-- The first network that awk finds gets the credentials. -/
  | found {left right : List Network} {n : Network}
    (first : ∀ x∈left,awk.finds ssid x.ssid=false) (hit : awk.finds ssid n.ssid=true) :
    Written awk ssid password (left++n::right)
      (left.map disabled++given ssid password n::right.map disabled)
  /-- Awk finds none, and a new network gets the credentials. -/
  | added {before : List Network} (none : ∀ x∈before,awk.finds ssid x.ssid=false) (n : Network) :
    Written awk ssid password before (before.map disabled++[given ssid password n])

/-- A Wi-Fi setup with an SSID and a password. -/
structure Setup where
  ssid : Text
  password : Text
  deriving DecidableEq

/-- A successful setup as a step. -/
def credentialStep (w : Supplicant σ) (awk : Awk) (s : σ) (x : Setup) : Option σ :=
  setupStep w awk s [x.ssid,x.password]

/-- Awk tells the names apart: each is plain and finds itself, and no two are
the same number. -/
structure ToldApart (awk : Awk) (names : List Text) : Prop where
  printable : ∀ a∈names,a.all isPrintable=true
  plain : ∀ a∈names,IsPlain a
  same : ∀ a∈names,awk.numeric a=true → awk.sameNumber a a=true
  numbers : ∀ a∈names,∀ b∈names,b≠a → awk.equalNumbers b a=false

/-- The SSID and the passphrase of a network. -/
structure Credential where
  ssid : Text
  psk : Option Text
  deriving DecidableEq

/-- The credentials of a network. -/
def credential (n : Network) : Credential := ⟨n.ssid,n.settings "psk".toList⟩

/-- A table of credentials. -/
abbrev Book := Table Credential Credential.ssid

/-- Enter the credentials of a setup. -/
def enter (b : Book) (x : Setup) : Book :=
  b.insertOrUpdate ⟨x.ssid,some (quoted x.password)⟩
    (fun c => {c with psk := some (quoted x.password)}) fun _ => rfl

/-- The passphrase that a setup gives to an SSID. -/
def passphrase (ssid : Text) (x : Setup) : Option (Option Text) :=
  if x.ssid=ssid then some (some (quoted x.password)) else none

/-- The passphrase of the first network with an SSID. -/
def pskOf (ssid : Text) (ns : List Network) : Option Text :=
  (ns.find? fun n => decide (n.ssid=ssid)).bind fun n => n.settings "psk".toList

section Step

variable {w : Supplicant σ} {awk : Awk} {s t : σ} {ssid password : Text}

/-- The changes to the profiles when the network of the run is one of them. -/
theorem map_configured {left right : List Profile} {p : Profile}
    (h : ((left++p::right).map Profile.id).Nodup) :
    (left++p::right).map (configured p.id ssid password)=
      (left.map Profile.network).map disabled++given ssid password p.network::
        (right.map Profile.network).map disabled := by
  have hother : ∀ ps : List Profile,(∀ q∈ps,q.id≠p.id) →
      ps.map (configured p.id ssid password)=(ps.map Profile.network).map disabled := by
    intro ps hps
    rw [List.map_map]
    exact List.map_congr_left fun q hq => if_neg (hps q hq)
  have hself : configured p.id ssid password p=given ssid password p.network := if_pos rfl
  rw [List.map_append,List.map_cons,List.nodup_append,List.nodup_cons] at h
  obtain ⟨_,⟨hright,_⟩,hleft⟩ := h
  rw [List.map_append,List.map_cons,hself,hother left,hother right]
  · exact fun q hq he => hright (he ▸ List.mem_map_of_mem hq)
  · exact fun q hq he => hleft _ (List.mem_map_of_mem hq) _ List.mem_cons_self he

/-- What a successful run does to the networks in memory and in the file. -/
theorem written_of_succeeds (hd : Documented w)
    (hp : ∀ n∈networks w s,n.ssid.all isPrintable=true)
    (h : (wifiSetup w awk [ssid,password] s).Succeeds) :
    Written awk ssid password (networks w s)
        (networks w (wifiSetup w awk [ssid,password] s).state) ∧
      w.saved (wifiSetup w awk [ssid,password] s).state=
        networks w (wifiSetup w awk [ssid,password] s).state := by
  obtain ⟨_,_,s',before,id,hargs,hprepared,hrun⟩ := exists_prepared h.1
  cases hargs
  have haccepted := h.2
  rw [hrun] at haccepted ⊢
  have hlisted : rejected (w.reply s .listNetworks)=false := by
    cases hprepared with
    | found => exact haccepted _ List.mem_cons_self
    | added => exact haccepted _ List.mem_cons_self
  have hp' : ∀ p∈w.profiles s,p.network.ssid.all isPrintable=true := fun p hm =>
    hp p.network (List.mem_map_of_mem hm)
  have hlookup := lookup_eq awk ssid hd hp' hlisted
  obtain ⟨hsaved,hmemory⟩ := exchange_configure hd fun x hx =>
    haccepted x (List.mem_append_right _ hx)
  have hnetworks : networks w (configureRun w s' before id ssid password).state=
      (w.profiles s').map (configured id ssid password) := hmemory
  refine ⟨?_,hsaved.trans hnetworks.symm⟩
  rw [hnetworks]
  obtain ⟨added,hprofiles,_,hcase⟩ := hprepared.profiles hd
  have hids := hd.ids s'
  rw [hprofiles] at hids ⊢
  cases hfind : (w.profiles s).find? fun p => awk.finds ssid p.network.ssid with
  | some p =>
    obtain ⟨hhit,left,right,hsplit,hleft⟩ := List.find?_eq_some_iff_append.mp hfind
    have hid : lookup awk ssid (w.reply s .listNetworks)=p.id := by
      rw [hlookup,hfind]
      rfl
    have hmem : p∈w.profiles s := List.mem_of_find?_eq_some hfind
    rcases hcase with ⟨_,rfl,rfl⟩|⟨hnone,_⟩
    · rw [List.append_nil,hsplit] at hids ⊢
      rw [hid,map_configured hids,networks,hsplit,List.map_append,List.map_cons]
      refine .found (fun x hx => ?_) hhit
      obtain ⟨q,hq,rfl⟩ := List.mem_map.mp hx
      have hmiss := hleft q hq
      rwa [Bool.not_eq_true'] at hmiss
    · exact absurd (hid.symm.trans hnone) (hd.digits s p hmem).1
  | none =>
    have hempty : lookup awk ssid (w.reply s .listNetworks)=[] := by
      rw [hlookup,hfind]
      rfl
    rcases hcase with ⟨hne,_⟩|⟨_,p,rfl,rfl⟩
    · exact absurd hempty hne
    · rw [map_configured hids,List.map_nil,List.map_nil]
      refine .added (fun x hx => ?_) p.network
      obtain ⟨q,hq,rfl⟩ := List.mem_map.mp hx
      exact eq_false_of_ne_true (List.find?_eq_none.mp hfind q hq)

/-- A step of a setup. -/
theorem written_of_step (hd : Documented w) (hp : ∀ n∈networks w s,n.ssid.all isPrintable=true)
    {x : Setup} (h : credentialStep w awk s x=some t) :
    Written awk x.ssid x.password (networks w s) (networks w t) ∧ w.saved t=networks w t := by
  obtain ⟨hsuccess,ht⟩ := Option.ite_none_right_eq_some.mp h
  rw [←Option.some.inj ht]
  exact written_of_succeeds hd hp hsuccess

end Step

section Book

variable {awk : Awk} {names : List Text} {ns ns' : List Network} {x : Setup} {b : Book}

/-- Names that are told apart find themselves only. -/
theorem ToldApart.finds_iff (ha : awk.Documented) (h : ToldApart awk names) {a c : Text}
    (hm : a∈names) (hc : c∈names) : awk.finds a c=true ↔ c=a := by
  constructor
  · intro hf
    by_contra hne
    rw [finds_of_isPlain ha (h.plain a hm) hne,h.numbers a hm c hc hne] at hf
    cases hf
  · rintro rfl
    exact (finds_self_iff ha).mpr ⟨h.plain c hc,h.same c hc⟩

/-- A name that is not found is another one. -/
theorem ToldApart.ne_of_finds (ha : awk.Documented) (h : ToldApart awk names) {a c : Text}
    (hm : a∈names) (hc : c∈names) (hf : awk.finds a c=false) : c≠a := fun he =>
  ne_true_of_eq_false hf ((h.finds_iff ha hm hc).mpr he)

/-- The credentials that a run gives. -/
theorem credential_given (ssid password : Text) (n : Network) :
    credential (given ssid password n)=⟨ssid,some (quoted password)⟩ := by
  have hpsk : "psk".toList≠"priority".toList := by decide
  rw [credential,given]
  dsimp only
  rw [if_neg hpsk,if_pos rfl]

/-- A network that is not selected keeps its credentials. -/
theorem map_credential_disabled (ns : List Network) :
    (ns.map disabled).map credential=ns.map credential := by
  rw [List.map_map]
  rfl

/-- A run enters its credentials. -/
theorem Written.enter (ha : awk.Documented) (hnames : ToldApart awk names)
    (hns : ∀ n∈ns,n.ssid∈names) (hx : x.ssid∈names) (hb : b.rows=ns.map credential)
    (h : Written awk x.ssid x.password ns ns') :
    (WifiCredentials.enter b x).rows=ns'.map credential := by
  have hmiss : ∀ n∈ns,awk.finds x.ssid n.ssid=false → n.ssid≠x.ssid := fun n hn hf =>
    hnames.ne_of_finds ha hx (hns n hn) hf
  have hkeep : ∀ ms : List Network,(∀ n∈ms,n.ssid≠x.ssid) → (ms.map credential).map (fun c =>
      if decide (c.ssid=x.ssid)=true then {c with psk := some (quoted x.password)} else c)=
        ms.map credential := by
    intro ms hms
    refine (List.map_congr_left fun c hc => ?_).trans (List.map_id _)
    obtain ⟨n,hn,rfl⟩ := List.mem_map.mp hc
    exact if_neg (ne_true_of_eq_false (decide_eq_false (hms n hn)))
  rw [WifiCredentials.enter,Table.insertOrUpdate]
  cases h with
  | @found left right n hfirst hhit =>
    have hn : n∈left++n::right := List.mem_append_right _ List.mem_cons_self
    have hssid : n.ssid=x.ssid := (hnames.finds_iff ha hx (hns n hn)).mp hhit
    have hkey : x.ssid∈b.rows.map Credential.ssid := by
      rw [hb,List.map_map,←hssid]
      exact List.mem_map_of_mem (f:=Credential.ssid∘credential) hn
    have hunique := b.unique
    rw [hb,List.map_map,List.map_append,List.map_cons,List.nodup_append,List.nodup_cons] at hunique
    have hright : ∀ m∈right,m.ssid≠x.ssid := fun m hm he => hunique.2.1.1
      (List.mem_map.mpr ⟨m,hm,he.trans hssid.symm⟩)
    have hcredential : (if decide ((credential n).ssid=x.ssid)=true then
        ({credential n with psk := some (quoted x.password)} : Credential) else credential n)=
          credential (given x.ssid x.password n) := by
      have hkey : (credential n).ssid=x.ssid := hssid
      rw [if_pos (decide_eq_true hkey),credential_given]
      exact congrArg (fun a => (⟨a,some (quoted x.password)⟩ : Credential)) hssid
    rw [if_pos hkey,Table.updateWhere]
    dsimp only
    rw [hb,List.map_append,List.map_cons,List.map_append,List.map_cons,List.map_append,
      List.map_cons,map_credential_disabled,map_credential_disabled,hcredential,hkeep right hright,
      hkeep left fun m hm => hmiss m (List.mem_append_left _ hm) (hfirst m hm)]
  | added hnone n =>
    have hkey : x.ssid∉b.rows.map Credential.ssid := by
      rw [hb,List.map_map]
      intro hm
      obtain ⟨m,hm,he⟩ := List.mem_map.mp hm
      exact hmiss m hm (hnone m hm) he
    rw [if_neg hkey,Table.rows_insertIgnore_of_notMem hkey,hb,List.map_append,
      map_credential_disabled,List.map_singleton,credential_given]

/-- After a run its network is the only one that is enabled. -/
theorem Written.enabled (ha : awk.Documented) (hnames : ToldApart awk names)
    (hns : ∀ n∈ns,n.ssid∈names) (hx : x.ssid∈names) (hunique : (ns.map Network.ssid).Nodup)
    (h : Written awk x.ssid x.password ns ns') : ∀ n∈ns',n.ssid∈names ∧
      n.enabled=decide (n.ssid=x.ssid) := by
  have hdisabled : ∀ ms : List Network,(∀ m∈ms,m∈ns ∧ m.ssid≠x.ssid) → ∀ n∈ms.map disabled,
      n.ssid∈names ∧ n.enabled=decide (n.ssid=x.ssid) := by
    intro ms hms n hn
    obtain ⟨m,hm,rfl⟩ := List.mem_map.mp hn
    exact ⟨hns m (hms m hm).1,(decide_eq_false (hms m hm).2).symm⟩
  have hgiven : ∀ n,(given x.ssid x.password n).ssid∈names ∧
      (given x.ssid x.password n).enabled=decide ((given x.ssid x.password n).ssid=x.ssid) :=
    fun n => ⟨hx,(decide_eq_true rfl).symm⟩
  have hmiss : ∀ n∈ns,awk.finds x.ssid n.ssid=false → n.ssid≠x.ssid := fun n hn hf =>
    hnames.ne_of_finds ha hx (hns n hn) hf
  intro m hm
  cases h with
  | @found left right n hfirst hhit =>
    have hssid : n.ssid=x.ssid := (hnames.finds_iff ha hx
      (hns n (List.mem_append_right _ List.mem_cons_self))).mp hhit
    rw [List.map_append,List.map_cons,List.nodup_append,List.nodup_cons] at hunique
    rcases List.mem_append.mp hm with hm|hm
    · exact hdisabled left (fun y hy => ⟨List.mem_append_left _ hy,
        hmiss y (List.mem_append_left _ hy) (hfirst y hy)⟩) m hm
    · rcases List.mem_cons.mp hm with rfl|hm
      · exact hgiven n
      · refine hdisabled right (fun y hy => ⟨List.mem_append_right _ (List.mem_cons_of_mem _ hy),
          fun he => hunique.2.1.1 ?_⟩) m hm
        exact List.mem_map.mpr ⟨y,hy,he.trans hssid.symm⟩
  | added hnone n =>
    rcases List.mem_append.mp hm with hm|hm
    · exact hdisabled ns (fun y hy => ⟨hy,hmiss y hy (hnone y hy)⟩) m hm
    · rw [List.mem_singleton.mp hm]
      exact hgiven n

/-- The passphrases of networks are those of the table. -/
theorem pskOf_eq (hb : b.rows=ns.map credential) (ssid : Text) :
    pskOf ssid ns=(b.lookup ssid).bind Credential.psk := by
  rw [Table.lookup,hb,List.find?_map,Option.bind_map]
  rfl

end Book

section Runs

variable {w : Supplicant σ} {awk : Awk} {names : List Text} {s t : σ} {x : Setup} {b : Book}

/-- Entering a passphrase writes that of its SSID. -/
theorem lookup_enter (b : Book) (x : Setup) (ssid : Text) :
    ((enter b x).lookup ssid).bind Credential.psk=
      (passphrase ssid x).getD ((b.lookup ssid).bind Credential.psk) := by
  rw [enter,Table.lookup_insertOrUpdate,passphrase]
  by_cases hx : x.ssid=ssid
  · rw [if_pos hx,if_pos hx]
    cases b.lookup ssid with
    | none => rfl
    | some c => rfl
  · rw [if_neg hx,if_neg hx]
    rfl

/-- What the networks of a daemon are after some setups. -/
structure Entered (w : Supplicant σ) (names : List Text) (first : List Network) (xs : List Setup)
    (s : σ) : Prop where
  named : ∀ n∈networks w s,n.ssid∈names
  unique : ((networks w s).map Network.ssid).Nodup
  phrases : ∀ ssid,pskOf ssid (networks w s)=lastWrite (passphrase ssid) (pskOf ssid first) xs
  selected : ∀ x,xs.getLast? =some x → w.saved s=networks w s ∧
    ∀ n∈networks w s,n.enabled=decide (n.ssid=x.ssid)

/-- One more setup. -/
theorem Entered.step (hd : Documented w) (ha : awk.Documented) (hnames : ToldApart awk names)
    {first : List Network} {xs : List Setup} (hs : Entered w names first xs s) (hx : x.ssid∈names)
    (h : credentialStep w awk s x=some t) : Entered w names first (xs++[x]) t := by
  obtain ⟨hwritten,hsaved⟩ := written_of_step hd
    (fun n hn => hnames.printable _ (hs.named n hn)) h
  have hkeys : ((networks w s).map credential).map Credential.ssid=
      (networks w s).map Network.ssid := by
    rw [List.map_map]
    rfl
  have henter := hwritten.enter ha hnames hs.named hx
    (b:=⟨(networks w s).map credential,hkeys ▸ hs.unique⟩) rfl
  have henabled := hwritten.enabled ha hnames hs.named hx hs.unique
  refine ⟨fun n hn => (henabled n hn).1,?_,fun ssid => ?_,fun y hy => ?_⟩
  · have hunique := (enter ⟨(networks w s).map credential,hkeys ▸ hs.unique⟩ x).unique
    rw [henter,List.map_map] at hunique
    exact hunique
  · rw [pskOf_eq henter,lookup_enter,←pskOf_eq rfl,lastWrite_concat,hs.phrases]
  · rw [List.getLast?_concat] at hy
    obtain rfl := Option.some.inj hy
    exact ⟨hsaved,fun n hn => (henabled n hn).2⟩

/-- After any sequence of successful setups whose SSIDs awk tells apart, each
SSID has one network with the last passphrase that was given for it, other
networks have theirs, and the file has all of them, the last one enabled. -/
theorem credentials_of_setups (w : Supplicant σ) (awk : Awk) (names : List Text) (s t : σ)
    (xs : List Setup) (hd : Documented w) (ha : awk.Documented) (hnames : ToldApart awk names)
    (hs : ∀ n∈networks w s,n.ssid∈names) (hunique : ((networks w s).map Network.ssid).Nodup)
    (hxs : ∀ x∈xs,x.ssid∈names) (h : run (credentialStep w awk) s xs=some t) :
    ((networks w t).map Network.ssid).Nodup ∧
      (∀ ssid,pskOf ssid (networks w t)=
        lastWrite (passphrase ssid) (pskOf ssid (networks w s)) xs) ∧
      ∀ x,xs.getLast? =some x → w.saved t=networks w t ∧
        ∀ n∈networks w t,n.enabled=decide (n.ssid=x.ssid) := by
  have hstart : Entered w names (networks w s) [] s :=
    ⟨hs,hunique,fun _ => rfl,fun x hx => absurd hx (Option.some_ne_none x).symm⟩
  have hend : (∀ x∈[]++xs,x.ssid∈names) → Entered w names (networks w s) ([]++xs) t :=
    events_run (I:=fun u seen => (∀ x∈seen,x.ssid∈names) → Entered w names (networks w s) seen u)
      [] (fun u x v seen hu hstep hseen =>
        (hu fun y hy => hseen y (List.mem_append_left _ hy)).step hd ha hnames
          (hseen x (List.mem_append_right _ (List.mem_singleton_self x))) hstep)
      (fun _ => hstart) h
  have hentered := hend hxs
  exact ⟨hentered.unique,hentered.phrases,hentered.selected⟩

/-- A hotspot whose passphrase is changed twice, and a network that is added. -/
def campusSetups : List Setup :=
  [⟨"hotspot".toList,"password1".toList⟩,⟨"cafe".toList,"password2".toList⟩,
    ⟨"hotspot".toList,"password3".toList⟩]

def campusNames : List Text := ["uofm-secure".toList,"hotspot".toList,"cafe".toList]

theorem credentials_of_setups_campus :
    ∃ t,run (credentialStep table digitAwk) campusAndHotspot campusSetups=some t ∧
      ((networks table t).map Network.ssid).Nodup ∧
      (∀ ssid,pskOf ssid (networks table t)=
        lastWrite (passphrase ssid) (pskOf ssid (networks table campusAndHotspot)) campusSetups) ∧
      ∀ x,campusSetups.getLast? =some x → table.saved t=networks table t ∧
        ∀ n∈networks table t,n.enabled=decide (n.ssid=x.ssid) := by
  have hnames : ToldApart digitAwk campusNames :=
    ⟨by decide +kernel,by decide +kernel,by decide +kernel,by decide +kernel⟩
  have hsome : (run (credentialStep table digitAwk) campusAndHotspot campusSetups).isSome=true := by
    decide +kernel
  obtain ⟨t,ht⟩ := Option.isSome_iff_exists.mp hsome
  exact ⟨t,ht,credentials_of_setups table digitAwk campusNames campusAndHotspot t campusSetups
    documented_table documented_digitAwk hnames (by decide +kernel) (by decide +kernel)
    (by decide +kernel) ht⟩

end Runs

end Greenhouse.WifiCredentials
