import Greenhouse.AwkText
import Mathlib.Data.List.Nodup

/-!
# wpa_supplicant behind wpa_cli

The daemon keeps a list of network profiles and a configuration file. Each
command of wpa_cli prints a reply, which is FAIL when the command is rejected.
The daemon is a parameter; what its commands do is stated as laws, and a table
of networks is a daemon that obeys them.
-/

namespace Greenhouse.WpaSupplicant

open ShellText AwkText

/-- A network block of the configuration. -/
structure Network where
  ssid : Text
  /-- The other variables of the block, such as psk, priority or identity. -/
  settings : Text → Option Text
  /-- The block is not marked with disabled=1. -/
  enabled : Bool

/-- A network block with the number that the daemon gives it. -/
structure Profile where
  id : Text
  network : Network

/-- The commands that the setup tool sends. -/
inductive Command
  | listNetworks
  | addNetwork
  | setNetwork (id name value : Text)
  | selectNetwork (id : Text)
  | enableNetwork (id : Text)
  | saveConfig
  | reconfigure
  deriving DecidableEq

/-- A daemon with its client. -/
structure Supplicant (σ : Type) where
  /-- wpa_cli ping reaches the daemon. -/
  pings : σ → Bool
  /-- What wpa_cli prints for a command. -/
  reply : σ → Command → Text
  /-- The state after a command. -/
  next : σ → Command → σ
  /-- The profiles in memory. -/
  profiles : σ → List Profile
  /-- The network blocks of the configuration file. -/
  saved : σ → List Network

/-- The reply to a rejected command. -/
def rejected (reply : Text) : Bool := decide (substitution reply="FAIL".toList)

/-- The text inside the quotes of a value. -/
def unquoted (value : Text) : Text := value.tail.dropLast

/-- Assign a variable of a block. -/
def Network.assign (n : Network) (name value : Text) : Network :=
  if name="ssid".toList then {n with ssid := unquoted value}
  else {n with settings := fun m => if m=name then some value else n.settings m}

/-- Change the blocks, each by its number. -/
def Profile.change (f : Text → Network → Network) (p : Profile) : Profile :=
  {p with network := f p.id p.network}

/-- set_network changes one block. -/
def assigning (id name value : Text) : Text → Network → Network := fun i n =>
  if i=id then n.assign name value else n

/-- select_network enables one block and disables the others. -/
def selecting (id : Text) : Text → Network → Network := fun i n => {n with enabled := decide (i=id)}

/-- enable_network enables one block. -/
def enabling (id : Text) : Text → Network → Network := fun i n =>
  if i=id then {n with enabled := true} else n

/-- A printable character. -/
def isPrintable (c : Char) : Bool := decide (' ' ≤ c ∧ c ≤ '~')

/-- What is known of the commands. -/
structure Documented {σ : Type} (w : Supplicant σ) : Prop where
  /-- No two profiles have the same number. -/
  ids : ∀ s,((w.profiles s).map Profile.id).Nodup
  digits : ∀ s,∀ p∈w.profiles s,p.id≠[] ∧ p.id.all Char.isDigit=true
  /-- A rejected command changes nothing. -/
  rejects : ∀ s c,rejected (w.reply s c)=true →
    w.profiles (w.next s c)=w.profiles s ∧ w.saved (w.next s c)=w.saved s
  lists : ∀ s,w.profiles (w.next s .listNetworks)=w.profiles s ∧
    w.saved (w.next s .listNetworks)=w.saved s
  /-- The table of printable profiles: a header, then number and escaped SSID of
  each profile. -/
  listing : ∀ s,rejected (w.reply s .listNetworks)=false →
    (∀ p∈w.profiles s,p.network.ssid.all isPrintable=true) →
    ∃ (header : Text) (rest : Profile → Text),'\n'∉header ∧ (∀ p,'\n'∉rest p) ∧
      w.reply s .listNetworks=unlines (header::(w.profiles s).map fun p =>
        p.id++ '\t'::(escaped p.network.ssid++ '\t'::rest p))
  /-- A new profile goes to the end, and its number is printed. -/
  adds : ∀ s,rejected (w.reply s .addNetwork)=false →
    ∃ p : Profile,w.reply s .addNetwork=p.id++['\n'] ∧
      w.profiles (w.next s .addNetwork)=w.profiles s++[p] ∧
      w.saved (w.next s .addNetwork)=w.saved s
  assigns : ∀ s id name value,rejected (w.reply s (.setNetwork id name value))=false →
    w.profiles (w.next s (.setNetwork id name value))=
      (w.profiles s).map (Profile.change (assigning id name value)) ∧
    w.saved (w.next s (.setNetwork id name value))=w.saved s
  selects : ∀ s id,rejected (w.reply s (.selectNetwork id))=false →
    w.profiles (w.next s (.selectNetwork id))=
      (w.profiles s).map (Profile.change (selecting id)) ∧
    w.saved (w.next s (.selectNetwork id))=w.saved s
  enables : ∀ s id,rejected (w.reply s (.enableNetwork id))=false →
    w.profiles (w.next s (.enableNetwork id))=
      (w.profiles s).map (Profile.change (enabling id)) ∧
    w.saved (w.next s (.enableNetwork id))=w.saved s
  /-- save_config writes the profiles with their flags. -/
  saves : ∀ s,rejected (w.reply s .saveConfig)=false →
    w.profiles (w.next s .saveConfig)=w.profiles s ∧
    w.saved (w.next s .saveConfig)=(w.profiles s).map Profile.network
  /-- reconfigure reads the file back. -/
  reloads : ∀ s,rejected (w.reply s .reconfigure)=false →
    (w.profiles (w.next s .reconfigure)).map Profile.network=w.saved s ∧
    w.saved (w.next s .reconfigure)=w.saved s

/-- A daemon whose profiles are numbered by their places. -/
structure Table where
  networks : List Network
  saved : List Network

/-- The number of a place. -/
def numeral (i : ℕ) : Text := (toString i).toList

/-- The numbered profiles of a table. -/
def Table.profiles (t : Table) : List Profile := t.networks.mapIdx fun i n => ⟨numeral i,n⟩

/-- Change the networks of a table. -/
def Table.change (f : Text → Network → Network) (t : Table) : Table :=
  {t with networks := t.networks.mapIdx fun i n => f (numeral i) n}

/-- A command names a profile, and a passphrase has 8 to 63 characters between
its quotes. -/
def Table.accepts (t : Table) : Command → Bool
  | .setNetwork id name value => (t.profiles.any fun p => decide (p.id=id)) &&
      (decide (name≠"psk".toList) || decide (10≤value.length ∧ value.length≤65))
  | .selectNetwork id | .enableNetwork id => t.profiles.any fun p => decide (p.id=id)
  | _ => true

/-- The line of a profile in list_networks. -/
def listLine (p : Profile) : Text :=
  p.id++ '\t'::(escaped p.network.ssid++ '\t'::
    (if p.network.enabled=true then "any\t".toList else "any\t[DISABLED]".toList))

/-- The reply to an accepted command. -/
def Table.answer (t : Table) : Command → Text
  | .listNetworks =>
    unlines ("network id / ssid / bssid / flags".toList::t.profiles.map listLine)
  | .addNetwork => numeral t.networks.length++['\n']
  | _ => "OK\n".toList

/-- The effect of an accepted command. -/
def Table.after (t : Table) : Command → Table
  | .listNetworks => t
  | .addNetwork => {t with networks := t.networks++[⟨[],fun _ => none,false⟩]}
  | .setNetwork id name value => t.change (assigning id name value)
  | .selectNetwork id => t.change (selecting id)
  | .enableNetwork id => t.change (enabling id)
  | .saveConfig => {t with saved := t.networks}
  | .reconfigure => {t with networks := t.saved}

/-- The table as a daemon. -/
def table : Supplicant Table where
  pings := fun _ => true
  reply := fun t c => if t.accepts c=true then t.answer c else "FAIL\n".toList
  next := fun t c => if t.accepts c=true then t.after c else t
  profiles := Table.profiles
  saved := Table.saved

/-- The digits of a number. -/
theorem numeral_eq (i : ℕ) : numeral i=Nat.toDigits 10 i := Nat.toList_repr

theorem numeral_injective : Function.Injective numeral := by
  intro i j h
  rw [numeral_eq,numeral_eq] at h
  have hvalue := congrArg (fun l => Nat.ofDigitChars 10 l 0) h
  rwa [Nat.ofDigitChars_ten_toDigits,Nat.ofDigitChars_ten_toDigits] at hvalue

theorem isDigit_of_mem_numeral {i : ℕ} {c : Char} (h : c∈numeral i) : c.isDigit=true :=
  Nat.isDigit_of_mem_toDigits (by decide) (by decide) (numeral_eq i ▸ h)

/-- The profile at a place has the number of the place. -/
theorem Table.getElem?_profiles (t : Table) (i : ℕ) :
    t.profiles[i]? =t.networks[i]?.map fun n => ⟨numeral i,n⟩ := List.getElem?_mapIdx

/-- The numbers of a table are those of its places. -/
theorem Table.map_id_profiles (t : Table) :
    t.profiles.map Profile.id=(List.range t.networks.length).map numeral := by
  refine List.ext_getElem? fun i => ?_
  rw [List.getElem?_map,List.getElem?_map,Table.getElem?_profiles,Option.map_map]
  by_cases hi : i<t.networks.length
  · rw [List.getElem?_eq_getElem hi,List.getElem?_range hi]
    rfl
  · have hlen : (List.range t.networks.length).length ≤ i := by
      rw [List.length_range]
      exact Nat.le_of_not_lt hi
    rw [List.getElem?_eq_none (Nat.le_of_not_lt hi),List.getElem?_eq_none hlen]
    rfl

/-- Changing the networks changes the profiles. -/
theorem Table.profiles_change (f : Text → Network → Network) (t : Table) :
    (t.change f).profiles=t.profiles.map (Profile.change f) := by
  refine List.ext_getElem? fun i => ?_
  rw [List.getElem?_map,Table.getElem?_profiles,Table.getElem?_profiles,Table.change,
    List.getElem?_mapIdx,Option.map_map,Option.map_map]
  rfl

/-- The networks of the profiles. -/
theorem Table.map_network_profiles (t : Table) : t.profiles.map Profile.network=t.networks := by
  refine List.ext_getElem? fun i => ?_
  rw [List.getElem?_map,Table.getElem?_profiles,Option.map_map]
  exact Option.map_id'

/-- A rejected command of a table is one that it does not accept. -/
theorem rejected_table (t : Table) (c : Command) :
    rejected (table.reply t c)=!t.accepts c := by
  dsimp only [table]
  by_cases h : t.accepts c=true
  · rw [if_pos h,h]
    have hok : rejected "OK\n".toList=false := by decide
    cases c with
    | listNetworks =>
      refine decide_eq_false fun hs => ?_
      have hprefix : "FAIL".toList<+:t.answer .listNetworks := by
        rw [←hs]
        exact List.rdropWhile_prefix _ _
      exact absurd (List.cons_prefix_cons.mp hprefix).1 (by decide)
    | addNetwork =>
      refine decide_eq_false fun hs => ?_
      have hnewline : '\n'∉numeral t.networks.length := fun hm =>
        absurd (isDigit_of_mem_numeral hm) (by decide)
      rw [Table.answer,substitution_line hnewline] at hs
      have hf : 'F'∈numeral t.networks.length := by
        rw [hs]
        decide
      exact absurd (isDigit_of_mem_numeral hf) (by decide)
    | setNetwork | selectNetwork | enableNetwork | saveConfig | reconfigure => exact hok
  · rw [if_neg h,eq_false_of_ne_true h]
    decide

/-- An accepted command of a table takes effect. -/
theorem next_table {t : Table} {c : Command} (h : rejected (table.reply t c)=false) :
    t.accepts c=true ∧ table.next t c=t.after c ∧ table.reply t c=t.answer c := by
  rw [rejected_table,Bool.not_eq_false'] at h
  exact ⟨h,if_pos h,if_pos h⟩

/-- The table obeys the laws. -/
theorem documented_table : Documented table where
  ids := fun t => by
    have hids : (table.profiles t).map Profile.id=_ := t.map_id_profiles
    rw [hids]
    exact List.nodup_range.map numeral_injective
  digits := by
    intro t p hp
    obtain ⟨i,_,rfl⟩ := List.mem_mapIdx.mp hp
    refine ⟨fun he => ?_,List.all_eq_true.mpr fun c hc => isDigit_of_mem_numeral hc⟩
    dsimp only at he
    rw [numeral_eq] at he
    exact Nat.toDigits_ne_nil he
  rejects := by
    intro t c h
    rw [rejected_table,Bool.not_eq_true'] at h
    have hnext : table.next t c=t := if_neg (ne_true_of_eq_false h)
    rw [hnext]
    exact ⟨rfl,rfl⟩
  lists := fun t => ⟨rfl,rfl⟩
  listing := by
    intro t h _
    refine ⟨_,_,?_,?_,(next_table h).2.2⟩
    · decide
    · intro p
      split
      · decide
      · decide
  adds := by
    intro t h
    refine ⟨⟨numeral t.networks.length,⟨[],fun _ => none,false⟩⟩,(next_table h).2.2,?_,rfl⟩
    rw [(next_table h).2.1]
    exact List.mapIdx_concat
  assigns := by
    intro t id name value h
    rw [(next_table h).2.1]
    exact ⟨t.profiles_change _,rfl⟩
  selects := by
    intro t id h
    rw [(next_table h).2.1]
    exact ⟨t.profiles_change _,rfl⟩
  enables := by
    intro t id h
    rw [(next_table h).2.1]
    exact ⟨t.profiles_change _,rfl⟩
  saves := fun t _ => ⟨rfl,t.map_network_profiles.symm⟩
  reloads := fun t _ => ⟨Table.map_network_profiles _,rfl⟩

end Greenhouse.WpaSupplicant
