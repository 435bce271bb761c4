import Greenhouse.WifiCredentials

/-!
# Wi-Fi setups that are repeated

A setup that awk finds again rewrites its own network, so repeating it changes
nothing. One that awk does not find again takes the next network that awk finds,
and when there is none left adds another network with the same SSID each time.
-/

namespace Greenhouse.WifiRepeats

open ShellText AwkText WpaSupplicant WifiSetup WifiFallbacks WifiLookup TemporalRuns
  WifiCredentials

variable {σ : Type}

/-- The number of networks with an SSID. -/
def withSsid (ssid : Text) (ns : List Network) : ℕ := ns.countP fun n => decide (n.ssid=ssid)

/-- The number of networks that awk finds for an SSID. -/
def foundBy (awk : Awk) (ssid : Text) (ns : List Network) : ℕ :=
  ns.countP fun n => awk.finds ssid n.ssid

section Networks

variable {awk : Awk} {ssid password : Text} {ns ns' ns'' : List Network}

/-- The first element that meets a condition parts a list in one way. -/
theorem first_unique {α : Type*} {p : α → Bool} {left right left' right' : List α} {a a' : α}
    (h : left++a::right=left'++a'::right') (hleft : ∀ x∈left,p x=false) (ha : p a=true)
    (hleft' : ∀ x∈left',p x=false) (ha' : p a'=true) : left=left' ∧ a=a' ∧ right=right' := by
  have hlength : left.length=left'.length := by
    rw [←findIdx_append_cons_iff.mpr ⟨ha,hleft⟩,h,findIdx_append_cons_iff.mpr ⟨ha',hleft'⟩]
  obtain ⟨hl,hr⟩ := List.append_inj h hlength
  exact ⟨hl,List.cons.inj hr⟩

/-- Credentials that are given again. -/
theorem given_given (n : Network) :
    given ssid password (given ssid password n)=given ssid password n := by
  have hsettings : ∀ m,(given ssid password (given ssid password n)).settings m=
      (given ssid password n).settings m := by
    intro m
    simp only [given]
    split
    · rfl
    · split
      · rfl
      · rfl
  exact congrArg (fun f => (⟨ssid,f,true⟩ : Network)) (funext hsettings)

/-- Networks that are disabled again. -/
theorem map_disabled_disabled (ns : List Network) :
    (ns.map disabled).map disabled=ns.map disabled := by
  rw [List.map_map]
  rfl

/-- Disabling does not change what awk finds. -/
theorem finds_disabled (h : ∀ x∈ns,awk.finds ssid x.ssid=false) :
    ∀ x∈ns.map disabled,awk.finds ssid x.ssid=false := by
  intro x hx
  obtain ⟨y,hy,rfl⟩ := List.mem_map.mp hx
  exact h y hy

/-- A setup that is found again and repeated changes nothing. -/
theorem repeat_written (hself : awk.finds ssid ssid=true) (h : Written awk ssid password ns ns')
    (h' : Written awk ssid password ns' ns'') : ns''=ns' := by
  obtain ⟨left,right,n,rfl,hleft⟩ : ∃ (left right : List Network) (n : Network),
      ns'=left.map disabled++given ssid password n::right.map disabled ∧
        ∀ x∈left.map disabled,awk.finds ssid x.ssid=false := by
    cases h with
    | @found left right n hfirst _ => exact ⟨left,right,n,rfl,finds_disabled hfirst⟩
    | added hnone n => exact ⟨ns,[],n,rfl,finds_disabled hnone⟩
  generalize hsame : left.map disabled++given ssid password n::right.map disabled=ms at h' ⊢
  cases h' with
  | @found left' right' n' hfirst hhit =>
    obtain ⟨rfl,rfl,rfl⟩ := first_unique (p:=fun x : Network => awk.finds ssid x.ssid) hsame hleft
      hself hfirst hhit
    rw [map_disabled_disabled,map_disabled_disabled,given_given]
  | added hnone m =>
    have hmiss := hnone (given ssid password n)
      (hsame ▸ List.mem_append_right _ List.mem_cons_self)
    exact absurd hself (ne_true_of_eq_false hmiss)

/-- The networks whose SSIDs meet a condition, before and after a run. -/
theorem countP_written (q : Text → Bool) (h : Written awk ssid password ns ns') :
    (∃ old,awk.finds ssid old=true ∧ ns'.length=ns.length ∧
      ns'.countP (fun n => q n.ssid)+(if q old=true then 1 else 0)=
        ns.countP (fun n => q n.ssid)+(if q ssid=true then 1 else 0)) ∨
    (∀ n∈ns,awk.finds ssid n.ssid=false) ∧ ns'.length=ns.length+1 ∧
      ns'.countP (fun n => q n.ssid)=
        ns.countP (fun n => q n.ssid)+(if q ssid=true then 1 else 0) := by
  have hdisabled : ∀ ms : List Network,(ms.map disabled).countP (fun n => q n.ssid)=
      ms.countP fun n => q n.ssid := fun ms => List.countP_map
  cases h with
  | @found left right n _ hhit =>
    refine Or.inl ⟨n.ssid,hhit,?_,?_⟩
    · rw [List.length_append,List.length_append,List.length_cons,List.length_cons,List.length_map,
        List.length_map]
    · rw [List.countP_append,List.countP_append,List.countP_cons,List.countP_cons,hdisabled,
        hdisabled]
      have hgiven : (given ssid password n).ssid=ssid := rfl
      rw [hgiven]
      omega
  | added hnone n =>
    refine Or.inr ⟨hnone,?_,?_⟩
    · rw [List.length_append,List.length_map]
      rfl
    · rw [List.countP_append,List.countP_cons,List.countP_nil,hdisabled,Nat.zero_add]
      rfl

/-- What a setup that is not found again does to the numbers of networks. -/
theorem counts_written (hself : awk.finds ssid ssid=false) (h : Written awk ssid password ns ns') :
    withSsid ssid ns'=withSsid ssid ns+1 ∧
      (foundBy awk ssid ns=foundBy awk ssid ns'+1 ∧ ns'.length=ns.length ∨
        foundBy awk ssid ns=0 ∧ foundBy awk ssid ns'=0 ∧ ns'.length=ns.length+1) := by
  have hmiss : ∀ {old},awk.finds ssid old=true → ¬decide (old=ssid)=true := by
    intro old hhit he
    rw [of_decide_eq_true he,hself] at hhit
    cases hhit
  have hsame := countP_written (fun t => decide (t=ssid)) h
  have hfinds := countP_written (awk.finds ssid) h
  simp only [decide_true,if_true,hself,Bool.false_eq_true,if_false,Nat.add_zero] at hsame hfinds
  rw [withSsid,withSsid,foundBy,foundBy]
  rcases hsame with ⟨old,hhit,hlength,hwith⟩|⟨_,hlength,hwith⟩
  · rw [if_neg (hmiss hhit)] at hwith
    rcases hfinds with ⟨old',hhit',_,hfound⟩|⟨_,hlong,_⟩
    · rw [if_pos hhit'] at hfound
      exact ⟨hwith,Or.inl ⟨hfound.symm,hlength⟩⟩
    · omega
  · rcases hfinds with ⟨_,_,hshort,_⟩|⟨hnone,_,hfound⟩
    · omega
    · have hzero : ns.countP (fun n => awk.finds ssid n.ssid)=0 :=
        List.countP_eq_zero.mpr fun m hm => ne_true_of_eq_false (hnone m hm)
      exact ⟨hwith,Or.inr ⟨hzero,hfound.trans hzero,hlength⟩⟩

/-- The SSIDs stay printable. -/
theorem printable_written (hssid : ssid.all isPrintable=true)
    (hns : ∀ n∈ns,n.ssid.all isPrintable=true) (h : Written awk ssid password ns ns') :
    ∀ n∈ns',n.ssid.all isPrintable=true := by
  have hdisabled : ∀ ms : List Network,(∀ n∈ms,n.ssid.all isPrintable=true) →
      ∀ n∈ms.map disabled,n.ssid.all isPrintable=true := by
    intro ms hms n hn
    obtain ⟨m,hm,rfl⟩ := List.mem_map.mp hn
    exact hms m hm
  cases h with
  | @found left right n _ _ =>
    rw [List.forall_mem_append,List.forall_mem_cons] at hns ⊢
    exact ⟨hdisabled left hns.1,hssid,hdisabled right hns.2.2⟩
  | added _ n =>
    rw [List.forall_mem_append,List.forall_mem_singleton]
    exact ⟨hdisabled ns hns,hssid⟩

end Networks

section Runs

variable {w : Supplicant σ} {awk : Awk} {s t u : σ} {x : Setup} {n : ℕ}

/-- Repeats of a setup that is found again. -/
theorem repeats_eq (hd : Documented w) (hself : awk.finds x.ssid x.ssid=true)
    (hx : x.ssid.all isPrintable=true) {ns : List Network}
    (hs : ∀ n∈networks w t,n.ssid.all isPrintable=true)
    (ht : Written awk x.ssid x.password ns (networks w t)) (hsaved : w.saved t=networks w t)
    (h : run (credentialStep w awk) t (List.replicate n x)=some u) :
    networks w u=networks w t ∧ w.saved u=w.saved t := by
  induction n generalizing t ns with
  | zero =>
    cases h
    exact ⟨rfl,rfl⟩
  | succ n ih =>
    obtain ⟨v,hv,hrest⟩ := run_cons.mp h
    obtain ⟨hwritten,hsaved'⟩ := written_of_step hd hs hv
    have hsame := repeat_written hself ht hwritten
    obtain ⟨hnetworks,hfile⟩ := ih (printable_written hx hs hwritten) hwritten hsaved' hrest
    exact ⟨hnetworks.trans hsame,by rw [hfile,hsaved',hsame,hsaved]⟩

/-- Repeats of a setup that is not found again. -/
theorem repeats_counts (hd : Documented w) (hself : awk.finds x.ssid x.ssid=false)
    (hx : x.ssid.all isPrintable=true) (hs : ∀ n∈networks w t,n.ssid.all isPrintable=true)
    (h : run (credentialStep w awk) t (List.replicate n x)=some u) :
    withSsid x.ssid (networks w u)=withSsid x.ssid (networks w t)+n ∧
      (networks w u).length=(networks w t).length+(n-foundBy awk x.ssid (networks w t)) := by
  induction n generalizing t with
  | zero =>
    cases h
    rw [Nat.zero_sub]
    exact ⟨rfl,rfl⟩
  | succ n ih =>
    obtain ⟨v,hv,hrest⟩ := run_cons.mp h
    have hwritten := (written_of_step hd hs hv).1
    obtain ⟨hwith,hlength⟩ := ih (printable_written hx hs hwritten) hrest
    obtain ⟨hwith',hcase⟩ := counts_written hself hwritten
    omega

/-- A setup that succeeds and is repeated leaves the networks and the file as
they are when its SSID has no quote and no backslash and equals itself, in case
it is a number. Otherwise each repeat makes another network have the SSID, first
those that awk finds for it and then new ones. -/
theorem repeats_stable_or_duplicate (w : Supplicant σ) (awk : Awk) (s t u : σ) (x : Setup) (n : ℕ)
    (hd : Documented w) (ha : awk.Documented) (hx : x.ssid.all isPrintable=true)
    (hs : ∀ n∈networks w s,n.ssid.all isPrintable=true)
    (ht : credentialStep w awk s x=some t)
    (hu : run (credentialStep w awk) t (List.replicate n x)=some u) :
    (IsPlain x.ssid ∧ (awk.numeric x.ssid=true → awk.sameNumber x.ssid x.ssid=true) →
      networks w u=networks w t ∧ w.saved u=w.saved t) ∧
    (¬(IsPlain x.ssid ∧ (awk.numeric x.ssid=true → awk.sameNumber x.ssid x.ssid=true)) →
      withSsid x.ssid (networks w u)=withSsid x.ssid (networks w t)+n ∧
        (networks w u).length=(networks w t).length+(n-foundBy awk x.ssid (networks w t))) := by
  obtain ⟨hwritten,hsaved⟩ := written_of_step hd hs ht
  have hprintable := printable_written hx hs hwritten
  rw [←finds_self_iff ha]
  exact ⟨fun hself => repeats_eq hd hself hx hprintable hwritten hsaved hu,
    fun hself => repeats_counts hd (eq_false_of_ne_true hself) hx hprintable hu⟩

/-- A network with a double quote in its SSID. -/
def quoteSetup : Setup := ⟨"my\"net".toList,"password".toList⟩

/-- The network with the double quote is set up three times. -/
theorem repeats_stable_or_duplicate_quote :
    ∃ t u,credentialStep table digitAwk campusAndHotspot quoteSetup=some t ∧
      run (credentialStep table digitAwk) t (List.replicate 2 quoteSetup)=some u ∧
      withSsid quoteSetup.ssid (networks table u)=withSsid quoteSetup.ssid (networks table t)+2 ∧
      (networks table u).length=(networks table t).length+
        (2-foundBy digitAwk quoteSetup.ssid (networks table t)) := by
  have hsome : (run (credentialStep table digitAwk) campusAndHotspot
      (quoteSetup::List.replicate 2 quoteSetup)).isSome=true := by decide +kernel
  obtain ⟨u,hu⟩ := Option.isSome_iff_exists.mp hsome
  obtain ⟨t,ht,hrest⟩ := run_cons.mp hu
  exact ⟨t,u,ht,hrest,(repeats_stable_or_duplicate table digitAwk campusAndHotspot t u quoteSetup 2
    documented_table documented_digitAwk (by decide +kernel) (by decide +kernel) ht hrest).2
    (by decide +kernel)⟩

end Runs

end Greenhouse.WifiRepeats
