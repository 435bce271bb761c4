import Greenhouse.WpaSupplicant

/-!
# The setup of a Wi-Fi network

The tool looks the SSID up in the list of networks, adds a network when it
finds none, and sends seven commands for the network: three variables, the
selection, the enabling, the saving and the reload. Of all replies only those
to the lookup and to the addition are read.
-/

namespace Greenhouse.WifiSetup

open ShellText AwkText WpaSupplicant

variable {σ : Type}

/-- How a run of wifi-setup ends. -/
inductive Ending
  /-- The number of arguments is wrong. -/
  | usage
  /-- wpa_supplicant is not reached. -/
  | unreachable
  /-- There is no new network block. -/
  | noBlock
  /-- All commands have been sent. -/
  | sent
  deriving DecidableEq

/-- The exit status of a run. -/
def Ending.exitStatus : Ending → ℕ
  | sent => 0
  | _ => 1

/-- The last lines that a run prints. -/
def Ending.messages : Ending → List String
  | usage => ["Usage: wifi-setup <SSID> <PASSWORD>",
      "Example: wifi-setup \"My Home Network\" \"password123\""]
  | unreachable => ["Error: wpa_supplicant is not running or not accessible on wlan0.",
      "Please ensure the Wi-Fi service is running."]
  | noBlock => ["Error: Failed to allocate a new network block."]
  | sent => ["","Wi-Fi credentials saved successfully!",
      "Check connection status using:  wpa_cli -i wlan0 status"]

/-- A run of wifi-setup. -/
structure Run (σ : Type) where
  ending : Ending
  /-- The network that the commands are sent for. -/
  networkId : Text
  /-- The commands with their replies. -/
  exchanges : List (Command×Text)
  /-- The state of wpa_supplicant afterwards. -/
  state : σ

/-- The run reports success. -/
def Run.reportsSuccess (r : Run σ) : Prop :=
  r.ending.exitStatus=0 ∧ "Wi-Fi credentials saved successfully!"∈r.ending.messages

/-- All commands have been sent, and none has been rejected. -/
def Run.Succeeds (r : Run σ) : Prop :=
  r.ending=.sent ∧ ∀ x∈r.exchanges,rejected x.2=false

instance (r : Run σ) : Decidable r.Succeeds :=
  inferInstanceAs (Decidable (r.ending=.sent ∧ ∀ x∈r.exchanges,rejected x.2=false))

/-- A text in double quotes. -/
def quoted (t : Text) : Text := '"'::t++['"']

/-- The commands for a network. -/
def configure (id ssid password : Text) : List Command :=
  [.setNetwork id "ssid".toList (quoted ssid),
    .setNetwork id "psk".toList (quoted password),
    .setNetwork id "priority".toList "100".toList,
    .selectNetwork id,
    .enableNetwork id,
    .saveConfig,
    .reconfigure]

/-- Send commands one after the other. -/
def exchange (w : Supplicant σ) : σ → List Command → List (Command×Text)×σ
  | s,[] => ([],s)
  | s,c::cs =>
    let rest := exchange w (w.next s c) cs
    ((c,w.reply s c)::rest.1,rest.2)

/-- What awk prints: the first field of each line but the first whose second
field equals the SSID. -/
def foundIds (awk : Awk) (ssid reply : Text) : List Text :=
  (((lines reply).drop 1).filter fun l => awk.equal (tabField 2 l) (awk.assigned ssid)).map
    (tabField 1)

/-- The first of the printed fields. -/
def lookup (awk : Awk) (ssid reply : Text) : Text :=
  substitution (unlines ((foundIds awk ssid reply).take 1))

/-- Send the commands for a network. -/
def configureRun (w : Supplicant σ) (s : σ) (before : List (Command×Text)) (id ssid password : Text) :
    Run σ :=
  ⟨.sent,id,before++(exchange w s (configure id ssid password)).1,
    (exchange w s (configure id ssid password)).2⟩

/-- wifi-setup.sh -/
def wifiSetup (w : Supplicant σ) (awk : Awk) (args : List Text) (s : σ) : Run σ :=
  match args with
  | [ssid,password] =>
    if w.pings s=false then ⟨.unreachable,[],[],s⟩
    else
      let listed := (Command.listNetworks,w.reply s .listNetworks)
      let s₁ := w.next s .listNetworks
      if lookup awk ssid listed.2=[] then
        let added := (Command.addNetwork,w.reply s₁ .addNetwork)
        let s₂ := w.next s₁ .addNetwork
        if substitution added.2="FAIL".toList ∨ substitution added.2=[] then
          ⟨.noBlock,[],[listed,added],s₂⟩
        else configureRun w s₂ [listed,added] (substitution added.2) ssid password
      else configureRun w s₁ [listed] (lookup awk ssid listed.2) ssid password
  | _ => ⟨.usage,[],[],s⟩

/-- The state, the exchanges and the network before the commands are sent. -/
inductive Prepared (w : Supplicant σ) (awk : Awk) (ssid : Text) (s : σ) :
    σ → List (Command×Text) → Text → Prop
  | found (id : lookup awk ssid (w.reply s .listNetworks)≠[]) :
    Prepared w awk ssid s (w.next s .listNetworks)
      [(.listNetworks,w.reply s .listNetworks)] (lookup awk ssid (w.reply s .listNetworks))
  | added (none : lookup awk ssid (w.reply s .listNetworks)=[])
    (block : rejected (w.reply (w.next s .listNetworks) .addNetwork)=false) :
    Prepared w awk ssid s (w.next (w.next s .listNetworks) .addNetwork)
      [(.listNetworks,w.reply s .listNetworks),
        (.addNetwork,w.reply (w.next s .listNetworks) .addNetwork)]
      (substitution (w.reply (w.next s .listNetworks) .addNetwork))

/-- The block of a profile after all commands for a network. -/
def configured (id ssid password : Text) (p : Profile) : Network :=
  if p.id=id then
    ⟨ssid,fun m => if m="priority".toList then some "100".toList
      else if m="psk".toList then some (quoted password) else p.network.settings m,true⟩
  else {p.network with enabled := false}

section Spec

variable {w : Supplicant σ} {awk : Awk} {s : σ} {args : List Text} {ssid password id : Text}

/-- A run that sends its commands has prepared them. -/
theorem exists_prepared (h : (wifiSetup w awk args s).ending=.sent) :
    ∃ ssid password s' before id,args=[ssid,password] ∧ Prepared w awk ssid s s' before id ∧
      wifiSetup w awk args s=configureRun w s' before id ssid password := by
  rcases args with _|⟨ssid,_|⟨password,_|⟨extra,rest⟩⟩⟩
  · cases h
  · cases h
  · refine ⟨ssid,password,?_⟩
    dsimp only [wifiSetup] at h ⊢
    by_cases hping : w.pings s=false
    · rw [if_pos hping] at h
      cases h
    rw [if_neg hping] at h ⊢
    by_cases hfound : lookup awk ssid (w.reply s .listNetworks)=[]
    · rw [if_pos hfound] at h ⊢
      split at h
      · cases h
      · rename_i hblock
        rw [if_neg hblock]
        have haccepted := decide_eq_false (not_or.mp hblock).1
        exact ⟨_,_,_,rfl,.added hfound haccepted,rfl⟩
    · rw [if_neg hfound]
      exact ⟨_,_,_,rfl,.found hfound,rfl⟩
  · cases h

/-- Before the commands are sent, the network of the run may have been added
at the end. -/
theorem Prepared.profiles {s' : σ} {before : List (Command×Text)} (hd : Documented w)
    (h : Prepared w awk ssid s s' before id) : ∃ added : List Profile,
      w.profiles s'=w.profiles s++added ∧ w.saved s'=w.saved s ∧
      ((lookup awk ssid (w.reply s .listNetworks)≠[] ∧ added=[] ∧
        id=lookup awk ssid (w.reply s .listNetworks)) ∨
      (lookup awk ssid (w.reply s .listNetworks)=[] ∧ ∃ p,added=[p] ∧ p.id=id)) := by
  obtain ⟨hprofiles,hsaved⟩ := hd.lists s
  cases h with
  | found hid =>
    refine ⟨[],?_,hsaved,Or.inl ⟨hid,rfl,rfl⟩⟩
    rw [hprofiles,List.append_nil]
  | added hnone hblock =>
    obtain ⟨p,hreply,hadded,hsame⟩ := hd.adds _ hblock
    refine ⟨[p],?_,hsame.trans hsaved,Or.inr ⟨hnone,p,rfl,?_⟩⟩
    · rw [hadded,hprofiles]
    · have hp : p∈w.profiles (w.next (w.next s .listNetworks) .addNetwork) := by
        rw [hadded]
        exact List.mem_append_right _ (List.mem_singleton_self p)
      have hdigits := List.all_eq_true.mp (hd.digits _ p hp).2
      have hline : '\n'∉p.id := fun hm => absurd (hdigits _ hm) (by decide)
      rw [hreply,substitution_line hline]

/-- The changes to a profile, one after the other. -/
theorem network_changes (id ssid password : Text) (p : Profile) :
    (((((p.change (assigning id "ssid".toList (quoted ssid))).change
      (assigning id "psk".toList (quoted password))).change
      (assigning id "priority".toList "100".toList)).change (selecting id)).change
      (enabling id)).network=configured id ssid password p := by
  have hpsk : "psk".toList≠"ssid".toList := by decide
  have hpriority : "priority".toList≠"ssid".toList := by decide
  have hquoted : unquoted (quoted ssid)=ssid := by
    rw [unquoted,quoted]
    exact List.dropLast_concat
  dsimp only [Profile.change,assigning,selecting,enabling,configured,Network.assign]
  generalize "ssid".toList=ssidName at hpsk hpriority ⊢
  generalize "psk".toList=pskName at hpsk ⊢
  generalize "priority".toList=priorityName at hpriority ⊢
  by_cases hp : p.id=id
  · simp only [hp,if_true,if_neg hpsk,if_neg hpriority,hquoted]
  · simp only [hp,if_false,decide_false]

/-- Accepted commands configure the network in memory and in the file. -/
theorem exchange_configure (hd : Documented w)
    (h : ∀ x∈(exchange w s (configure id ssid password)).1,rejected x.2=false) :
    w.saved (exchange w s (configure id ssid password)).2=
        (w.profiles s).map (configured id ssid password) ∧
      (w.profiles (exchange w s (configure id ssid password)).2).map Profile.network=
        (w.profiles s).map (configured id ssid password) := by
  simp only [configure,exchange,List.forall_mem_cons] at h ⊢
  obtain ⟨hssid,hpsk,hpriority,hselect,henable,hsave,hreload,_⟩ := h
  have hprofiles := (hd.saves _ hsave).2
  rw [(hd.enables _ id henable).1,(hd.selects _ id hselect).1,(hd.assigns _ _ _ _ hpriority).1,
    (hd.assigns _ _ _ _ hpsk).1,(hd.assigns _ _ _ _ hssid).1,List.map_map,List.map_map,
    List.map_map,List.map_map,List.map_map] at hprofiles
  have hnetwork : ∀ p,(Profile.network∘Profile.change (enabling id)∘
      Profile.change (selecting id)∘
      Profile.change (assigning id "priority".toList "100".toList)∘
      Profile.change (assigning id "psk".toList (quoted password))∘
      Profile.change (assigning id "ssid".toList (quoted ssid))) p=
        configured id ssid password p := by
    intro p
    exact network_changes id ssid password p
  refine ⟨?_,?_⟩
  · rw [(hd.reloads _ hreload).2,hprofiles]
    exact List.map_congr_left fun p _ => hnetwork p
  · rw [(hd.reloads _ hreload).1,hprofiles]
    exact List.map_congr_left fun p _ => hnetwork p

end Spec

end Greenhouse.WifiSetup
