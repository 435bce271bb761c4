import Greenhouse.WifiLookup
import Mathlib.Data.List.Forall2

/-!
# Wi-Fi setups with rejected commands

Any command of a run may be rejected, and only two replies are read. A run that
fails changes nothing. A run that sends its commands adds one network at most
and may disable the others, but never touches their SSIDs and variables: the
file is the old one or the result, and memory is the result or the file.
-/

namespace Greenhouse.WifiRejections

open ShellText AwkText WpaSupplicant WifiSetup WifiLookup

variable {σ : Type}

/-- The profiles keep their numbers, and all but one keep their contents. -/
def KeepsOthers (id : Text) : List Profile → List Profile → Prop :=
  List.Forall₂ fun p q => q.id=p.id ∧ (p.id≠id → contents q.network=contents p.network)

/-- A network keeps the contents of its profile unless the run is for it. -/
def KeptUnless (id : Text) (p : Profile) (n : Network) : Prop :=
  p.id≠id → contents n=contents p.network

/-- The run has left memory and file as they were. -/
def ChangesNothing (w : Supplicant σ) (s : σ) (r : Run σ) : Prop :=
  w.profiles r.state=w.profiles s ∧ w.saved r.state=w.saved s

/-- The run has added one network at most and has left the contents of all others
as they were in its result; the file is the old one or the result, and memory is
the result or the file. -/
def SparesOthers (w : Supplicant σ) (s : σ) (r : Run σ) : Prop :=
  ∃ added result,added.length≤1 ∧ (∀ p∈added,p.id=r.networkId) ∧
    List.Forall₂ (KeptUnless r.networkId) (w.profiles s++added) result ∧
    (w.saved r.state=w.saved s ∨ w.saved r.state=result) ∧
    (networks w r.state=result ∨ networks w r.state=w.saved r.state)

/-- A command for the network of a run, in front of the saving. -/
inductive ForNetwork (id : Text) : Command → Prop
  | set (name value : Text) : ForNetwork id (.setNetwork id name value)
  | select : ForNetwork id (.selectNetwork id)
  | enable : ForNetwork id (.enableNetwork id)

section Commands

variable {w : Supplicant σ} {awk : Awk} {s : σ} {id ssid password : Text}
  {ps qs rs : List Profile} {c : Command}

theorem KeepsOthers.refl (ps : List Profile) : KeepsOthers id ps ps :=
  List.forall₂_same.mpr fun _ _ => ⟨rfl,fun _ => rfl⟩

theorem KeepsOthers.trans (h : KeepsOthers id ps qs) (h' : KeepsOthers id qs rs) :
    KeepsOthers id ps rs := by
  induction h generalizing rs with
  | nil => exact h'
  | cons hp _ ih =>
    cases h' with
    | cons hq hrest =>
      exact List.Forall₂.cons ⟨hq.1.trans hp.1,fun hne =>
        (hq.2 (hp.1 ▸ hne)).trans (hp.2 hne)⟩ (ih hrest)

/-- A change that keeps the contents of the other networks. -/
theorem keepsOthers_map {f : Text → Network → Network}
    (hf : ∀ i n,i≠id → contents (f i n)=contents n) (ps : List Profile) :
    KeepsOthers id ps (ps.map (Profile.change f)) := by
  rw [KeepsOthers,List.forall₂_map_right_iff]
  exact List.forall₂_same.mpr fun p _ => ⟨rfl,fun hne => hf p.id p.network hne⟩

/-- A command for the network keeps the others and the file, rejected or not. -/
theorem keepsOthers_next (hd : Documented w) (h : ForNetwork id c) (s : σ) :
    KeepsOthers id (w.profiles s) (w.profiles (w.next s c)) ∧
      w.saved (w.next s c)=w.saved s := by
  cases hr : rejected (w.reply s c) with
  | true =>
    obtain ⟨hprofiles,hsaved⟩ := hd.rejects s c hr
    rw [hprofiles]
    exact ⟨KeepsOthers.refl _,hsaved⟩
  | false =>
    cases h with
    | set name value =>
      obtain ⟨hprofiles,hsaved⟩ := hd.assigns s id name value hr
      rw [hprofiles]
      exact ⟨keepsOthers_map (fun i n hne => congrArg contents (if_neg hne)) _,hsaved⟩
    | select =>
      obtain ⟨hprofiles,hsaved⟩ := hd.selects s id hr
      rw [hprofiles]
      exact ⟨keepsOthers_map (f:=selecting id) (fun _ _ _ => rfl) _,hsaved⟩
    | enable =>
      obtain ⟨hprofiles,hsaved⟩ := hd.enables s id hr
      rw [hprofiles]
      exact ⟨keepsOthers_map (fun i n hne => congrArg contents (if_neg hne)) _,hsaved⟩

/-- The states of a sequence of commands. -/
theorem exchange_append (w : Supplicant σ) (s : σ) (cs ds : List Command) :
    (exchange w s (cs++ds)).2=(exchange w (exchange w s cs).2 ds).2 := by
  induction cs generalizing s with
  | nil => rfl
  | cons c cs ih => exact ih (w.next s c)

/-- Commands for the network keep the others and the file. -/
theorem keepsOthers_exchange (hd : Documented w) {cs : List Command} (h : ∀ c∈cs,ForNetwork id c)
    (s : σ) : KeepsOthers id (w.profiles s) (w.profiles (exchange w s cs).2) ∧
      w.saved (exchange w s cs).2=w.saved s := by
  induction cs generalizing s with
  | nil => exact ⟨KeepsOthers.refl _,rfl⟩
  | cons c cs ih =>
    obtain ⟨hkeeps,hsaved⟩ := keepsOthers_next hd (h c List.mem_cons_self) s
    obtain ⟨hkeeps',hsaved'⟩ := ih (fun d hm => h d (List.mem_cons_of_mem _ hm)) (w.next s c)
    exact ⟨hkeeps.trans hkeeps',hsaved'.trans hsaved⟩

/-- The saving and the reload, rejected or not. -/
theorem saved_reloaded (hd : Documented w) (s : σ) :
    (w.saved (exchange w s [.saveConfig,.reconfigure]).2=w.saved s ∨
      w.saved (exchange w s [.saveConfig,.reconfigure]).2=networks w s) ∧
    (networks w (exchange w s [.saveConfig,.reconfigure]).2=networks w s ∨
      networks w (exchange w s [.saveConfig,.reconfigure]).2=
        w.saved (exchange w s [.saveConfig,.reconfigure]).2) := by
  have hsave : w.profiles (w.next s .saveConfig)=w.profiles s ∧
      (w.saved (w.next s .saveConfig)=w.saved s ∨
        w.saved (w.next s .saveConfig)=networks w s) := by
    cases hr : rejected (w.reply s .saveConfig) with
    | true =>
      obtain ⟨hprofiles,hsaved⟩ := hd.rejects _ _ hr
      exact ⟨hprofiles,Or.inl hsaved⟩
    | false =>
      obtain ⟨hprofiles,hsaved⟩ := hd.saves _ hr
      exact ⟨hprofiles,Or.inr hsaved⟩
  have hmemory : networks w (w.next s .saveConfig)=networks w s :=
    congrArg (List.map Profile.network) hsave.1
  rw [exchange,exchange,exchange]
  dsimp only
  cases hr : rejected (w.reply (w.next s .saveConfig) .reconfigure) with
  | true =>
    obtain ⟨hprofiles,hsaved⟩ := hd.rejects _ _ hr
    rw [hsaved]
    exact ⟨hsave.2,Or.inl ((congrArg (List.map Profile.network) hprofiles).trans hmemory)⟩
  | false =>
    obtain ⟨hprofiles,hsaved⟩ := hd.reloads _ hr
    rw [hsaved]
    exact ⟨hsave.2,Or.inr hprofiles⟩

end Commands

section Runs

variable {w : Supplicant σ} {awk : Awk} {s : σ} {args : List Text}

/-- The addition of a network that is not taken changes nothing. -/
theorem unchanged_of_noBlock (hd : Documented w) (s : σ)
    (h : substitution (w.reply s .addNetwork)="FAIL".toList ∨
      substitution (w.reply s .addNetwork)=[]) :
    w.profiles (w.next s .addNetwork)=w.profiles s ∧ w.saved (w.next s .addNetwork)=w.saved s := by
  cases hr : rejected (w.reply s .addNetwork) with
  | true => exact hd.rejects _ _ hr
  | false =>
    obtain ⟨p,hreply,hprofiles,_⟩ := hd.adds s hr
    have hp : p∈w.profiles (w.next s .addNetwork) := by
      rw [hprofiles]
      exact List.mem_append_right _ (List.mem_singleton_self p)
    obtain ⟨hne,hdigits⟩ := hd.digits _ p hp
    have hline : '\n'∉p.id := fun hm => absurd (List.all_eq_true.mp hdigits _ hm) (by decide)
    rcases h with hfail|hempty
    · exact absurd (decide_eq_true hfail) (ne_true_of_eq_false hr)
    · rw [hreply,substitution_line hline] at hempty
      exact absurd hempty hne

/-- A run that fails leaves memory and file as they were. -/
theorem changesNothing_of_not_sent (hd : Documented w)
    (h : (wifiSetup w awk args s).ending≠.sent) :
    ChangesNothing w s (wifiSetup w awk args s) := by
  rcases args with _|⟨ssid,_|⟨password,_|⟨extra,rest⟩⟩⟩
  · exact ⟨rfl,rfl⟩
  · exact ⟨rfl,rfl⟩
  · dsimp only [wifiSetup] at h ⊢
    split at h
    · rename_i hping
      rw [if_pos hping]
      exact ⟨rfl,rfl⟩
    rename_i hping
    rw [if_neg hping]
    split at h
    · rename_i hnone
      rw [if_pos hnone]
      split at h
      · rename_i hblock
        rw [if_pos hblock]
        obtain ⟨hprofiles,hsaved⟩ := unchanged_of_noBlock hd _ hblock
        obtain ⟨hlisted,hfile⟩ := hd.lists s
        exact ⟨hprofiles.trans hlisted,hsaved.trans hfile⟩
      · exact absurd rfl h
    · exact absurd rfl h
  · exact ⟨rfl,rfl⟩

/-- The commands of a run in front of the saving. -/
theorem configure_eq (id ssid password : Text) :
    configure id ssid password=(configure id ssid password).take 5++[.saveConfig,.reconfigure] :=
  rfl

theorem forNetwork_of_mem (id ssid password : Text) :
    ∀ c∈(configure id ssid password).take 5,ForNetwork id c := by
  have hall : ∀ c∈[Command.setNetwork id "ssid".toList (quoted ssid),
      .setNetwork id "psk".toList (quoted password),.setNetwork id "priority".toList "100".toList,
      .selectNetwork id,.enableNetwork id],ForNetwork id c := by
    simp only [List.forall_mem_cons]
    exact ⟨.set _ _,.set _ _,.set _ _,.select,.enable,fun _ h => absurd h List.not_mem_nil⟩
  exact hall

/-- Whatever commands are rejected, a run that fails changes nothing, and a run
that ends well spares the other networks. -/
theorem others_untouched (w : Supplicant σ) (awk : Awk) (args : List Text) (s : σ)
    (hd : Documented w) :
    ((wifiSetup w awk args s).ending.exitStatus≠0 → ChangesNothing w s (wifiSetup w awk args s)) ∧
      ((wifiSetup w awk args s).ending.exitStatus=0 →
        SparesOthers w s (wifiSetup w awk args s)) := by
  constructor
  · intro hstatus
    refine changesNothing_of_not_sent hd fun hsent => hstatus ?_
    rw [hsent]
    rfl
  · intro hstatus
    have hsent : (wifiSetup w awk args s).ending=.sent := by
      cases hend : (wifiSetup w awk args s).ending with
      | sent => rfl
      | usage | unreachable | noBlock =>
        rw [hend] at hstatus
        exact absurd hstatus Nat.one_ne_zero
    obtain ⟨ssid,password,s',before,id,rfl,hprepared,hrun⟩ := exists_prepared hsent
    obtain ⟨added,hprofiles,hfile,hcase⟩ := hprepared.profiles hd
    obtain ⟨hkeeps,hkept⟩ := keepsOthers_exchange hd (forNetwork_of_mem id ssid password) s'
    have hstate : (configureRun w s' before id ssid password).state=
        (exchange w (exchange w s' ((configure id ssid password).take 5)).2
          [.saveConfig,.reconfigure]).2 := by
      rw [configureRun,configure_eq,exchange_append]
      rfl
    obtain ⟨hsaved,hmemory⟩ :=
      saved_reloaded hd (exchange w s' ((configure id ssid password).take 5)).2
    rw [hrun,SparesOthers,hstate]
    refine ⟨added,_,?_,?_,?_,?_,hmemory⟩
    · rcases hcase with ⟨_,rfl,_⟩|⟨_,p,rfl,_⟩
      · exact Nat.zero_le 1
      · exact le_refl 1
    · rcases hcase with ⟨_,rfl,_⟩|⟨_,p,rfl,hp⟩
      · exact fun q hq => absurd hq List.not_mem_nil
      · exact fun q hq => (List.mem_singleton.mp hq) ▸ hp
    · rw [←hprofiles,networks,List.forall₂_map_right_iff]
      exact hkeeps.imp fun _ _ h => h.2
    · rwa [hkept,hfile] at hsaved

/-- The password is too short for the daemon. -/
theorem others_untouched_short : SparesOthers table numberAndHotspot
    (wifiSetup table digitAwk ["cafe".toList,"short".toList] numberAndHotspot) :=
  (others_untouched table digitAwk ["cafe".toList,"short".toList] numberAndHotspot
    documented_table).2 (by decide +kernel)

end Runs

end Greenhouse.WifiRejections
