import Mathlib.Data.List.Basic

/-!
# Finite runs of a partial step function

A step function refuses an event by returning none. Properties of runs are
read along the events: at every visited state, at every executed step, or at
every visited state together with the events still to come. One invariant
argument serves all of them, and one unwinding argument compares a run with
the run left after some of its events have been deleted.
-/

namespace Greenhouse.TemporalRuns

variable {S S' E O : Type*}

/-- Execute the events in order; a refused event leaves no final state. -/
def run (step : S → E → Option S) : S → List E → Option S
  | s,[] => some s
  | s,e::es => (step s e).bind fun t => run step t es

/-- The property of the state and of the events still to come holds at every
visited point of the run, the first and the last one included. -/
def Globally (step : S → E → Option S) (Q : S → List E → Prop) : S → List E → Prop
  | s,[] => Q s []
  | s,e::es => Q s (e::es) ∧ ∀ t, step s e=some t → Globally step Q t es

/-- The property holds in every visited state. -/
def EachState (step : S → E → Option S) (P : S → Prop) : S → List E → Prop :=
  Globally step fun s _ => P s

/-- The property of the state before, the event and the state after holds at
every executed step. -/
def EachStep (step : S → E → Option S) (G : S → E → S → Prop) : S → List E → Prop
  | _,[] => True
  | s,e::es => ∀ t, step s e=some t → G s e t ∧ EachStep step G t es

/-- Everything the executed steps put out, in order. -/
def observe (step : S → E → Option S) (out : S → E → S → List O) : S → List E → List O
  | _,[] => []
  | s,e::es =>
    match step s e with
    | some t => out s e t++observe step out t es
    | none => []

/-- The events of a run that survive a filter reading the original states. -/
def restrict (step : S → E → Option S) (keep : S → E → Bool) : S → List E → List E
  | _,[] => []
  | s,e::es =>
    match step s e with
    | some t => if keep s e=true then e::restrict step keep t es else restrict step keep t es
    | none => []

variable {step : S → E → Option S}

/-- A decidable property can be checked along a concrete run. -/
instance decidableEachState {P : S → Prop} [DecidablePred P] :
    (s : S) → (es : List E) → Decidable (EachState step P s es)
  | s,[] => inferInstanceAs (Decidable (P s))
  | s,e::es =>
    match h : step s e with
    | none => decidable_of_iff (P s)
      ⟨fun hp => ⟨hp,fun t ht => by rw [h] at ht; cases ht⟩,fun hp => hp.1⟩
    | some t =>
      have := decidableEachState (P:=P) t es
      decidable_of_iff (P s ∧ EachState step P t es)
        ⟨fun hp => ⟨hp.1,fun u hu => by rw [h] at hu; cases hu; exact hp.2⟩,
          fun hp => ⟨hp.1,hp.2 t h⟩⟩

/-- A decidable condition can be checked along a concrete run. -/
instance decidableEachStep {G : S → E → S → Prop} [∀ s e t, Decidable (G s e t)] :
    (s : S) → (es : List E) → Decidable (EachStep step G s es)
  | _,[] => isTrue trivial
  | s,e::es =>
    match h : step s e with
    | none => isTrue fun t ht => by rw [h] at ht; cases ht
    | some t =>
      have := decidableEachStep (G:=G) t es
      decidable_of_iff (G s e t ∧ EachStep step G t es)
        ⟨fun hp u hu => by rw [h] at hu; cases hu; exact hp,fun hp => hp t h⟩

/-- A nonempty run starts with one step. -/
theorem run_cons {s u : S} {e : E} {es : List E} :
    run step s (e::es)=some u ↔ ∃ t, step s e=some t ∧ run step t es=some u :=
  Option.bind_eq_some_iff

/-- A run can be cut anywhere. -/
theorem run_append {s u : S} {es fs : List E} :
    run step s (es++fs)=some u ↔ ∃ t,run step s es=some t ∧ run step t fs=some u := by
  induction es generalizing s with
  | nil => exact ⟨fun h => ⟨s,rfl,h⟩,fun ⟨_,ht,hu⟩ => Option.some.inj ht ▸ hu⟩
  | cons e es ih =>
    rw [List.cons_append,run_cons]
    constructor
    · rintro ⟨t,ht,hu⟩
      obtain ⟨v,hv,hu⟩ := ih.mp hu
      exact ⟨v,run_cons.mpr ⟨t,ht,hv⟩,hu⟩
    · rintro ⟨v,hv,hu⟩
      obtain ⟨t,ht,hv⟩ := run_cons.mp hv
      exact ⟨t,ht,ih.mpr ⟨v,hv,hu⟩⟩

/-- A property that holds everywhere holds at the first point. -/
theorem Globally.head {Q : S → List E → Prop} {s : S} {es : List E}
    (h : Globally step Q s es) : Q s es := by
  cases es with
  | nil => exact h
  | cons e es => exact h.1

/-- A property of all points of a run holds of all points of a suffix. -/
theorem Globally.suffix {Q : S → List E → Prop} {s t : S} {es fs : List E}
    (h : Globally step Q s (es++fs)) (hr : run step s es=some t) : Globally step Q t fs := by
  induction es generalizing s with
  | nil =>
    cases hr
    exact h
  | cons e es ih =>
    obtain ⟨u,hu,hr⟩ := run_cons.mp hr
    exact ih (h.2 u hu) hr

/-- A property of every visited state holds in the state a run ends in. -/
theorem EachState.final {P : S → Prop} {s t : S} {es : List E}
    (h : EachState step P s es) (hr : run step s es=some t) : P t := by
  induction es generalizing s with
  | nil =>
    cases hr
    exact h
  | cons e es ih =>
    obtain ⟨u,hu,hr⟩ := run_cons.mp hr
    exact ih (h.2 u hu) hr

/-- The empty condition is met by every run. -/
theorem EachStep.trivial (s : S) (es : List E) : EachStep step (fun _ _ _ => True) s es := by
  induction es generalizing s with
  | nil => exact True.intro
  | cons e es ih => exact fun t _ => ⟨True.intro,ih t⟩

/-- A condition on the events alone is met by every run of such events. -/
theorem EachStep.of_events {G : S → E → S → Prop} {es : List E}
    (h : ∀ e∈es,∀ s t,G s e t) (s : S) : EachStep step G s es := by
  induction es generalizing s with
  | nil => exact True.intro
  | cons e es ih =>
    exact fun t _ => ⟨h e List.mem_cons_self s t,ih (fun e he => h e (List.mem_cons_of_mem _ he)) t⟩

/-- The suffix of a run whose executed steps all meet a condition meets it too. -/
theorem EachStep.suffix {G : S → E → S → Prop} {s t : S} {es fs : List E}
    (h : EachStep step G s (es++fs)) (hr : run step s es=some t) : EachStep step G t fs := by
  induction es generalizing s with
  | nil =>
    cases hr
    exact h
  | cons e es ih =>
    obtain ⟨u,hu,hr⟩ := run_cons.mp hr
    exact ih (h u hu).2 hr

/-- Conditions on the executed steps combine. -/
theorem EachStep.and {G H : S → E → S → Prop} {s : S} {es : List E}
    (hg : EachStep step G s es) (hh : EachStep step H s es) :
    EachStep step (fun t e u => G t e u ∧ H t e u) s es := by
  induction es generalizing s with
  | nil => trivial
  | cons e es ih =>
    intro t ht
    exact ⟨⟨(hg t ht).1,(hh t ht).1⟩,ih (hg t ht).2 (hh t ht).2⟩

/-- A family of conditions holds at each step when each of them does. -/
theorem eachStep_forall {K : Type*} {G : K → S → E → S → Prop} {s : S} {es : List E} :
    EachStep step (fun s e t => ∀ k,G k s e t) s es ↔ ∀ k,EachStep step (G k) s es := by
  induction es generalizing s with
  | nil => exact ⟨fun _ _ => True.intro,fun _ => True.intro⟩
  | cons e es ih =>
    constructor
    · exact fun h k t ht => ⟨(h t ht).1 k,ih.mp (h t ht).2 k⟩
    · exact fun h t ht => ⟨fun k => (h k t ht).1,ih.mpr fun k => (h k t ht).2⟩

/-- Properties of all points of a run combine. -/
theorem Globally.and {Q R : S → List E → Prop} {s : S} {es : List E}
    (hq : Globally step Q s es) (hr : Globally step R s es) :
    Globally step (fun t rest => Q t rest ∧ R t rest) s es := by
  induction es generalizing s with
  | nil => exact ⟨hq,hr⟩
  | cons e es ih => exact ⟨⟨hq.1,hr.1⟩,fun t ht => ih (hq.2 t ht) (hr.2 t ht)⟩

/-- What every step counts is counted once for each executed event. -/
theorem globally_counted {count : S → ℕ} {n : ℕ} {s : S} {es : List E}
    (hstep : ∀ t e u,step t e=some u → count u=count t+1) (hs : count s+es.length=n) :
    Globally step (fun t rest => count t+rest.length=n) s es := by
  induction es generalizing s with
  | nil => exact hs
  | cons e es ih =>
    refine ⟨hs,fun t ht => ih ?_⟩
    rw [List.length_cons] at hs
    rw [hstep s e t ht]
    omega

section Invariants

variable {I : S → Prop} {G H : S → E → S → Prop}

/-- The invariant rule for runs: what one guarded step preserves gives, at
every visited point, whatever the invariant and the remaining guards give. -/
theorem globally_of_invariant {Q : S → List E → Prop} {s : S} {es : List E}
    (hstep : ∀ t e u, I t → G t e u → step t e=some u → I u)
    (hq : ∀ t rest, I t → EachStep step G t rest → Q t rest)
    (hs : I s) (hg : EachStep step G s es) : Globally step Q s es := by
  induction es generalizing s with
  | nil => exact hq s [] hs hg
  | cons e es ih =>
    refine ⟨hq s (e::es) hs hg,fun t ht => ?_⟩
    obtain ⟨hge,hrest⟩ := hg t ht
    exact ih (hstep s e t hs hge ht) hrest

/-- A property preserved by every guarded step holds in every visited state. -/
theorem eachState_of_invariant {s : S} {es : List E}
    (hstep : ∀ t e u, I t → G t e u → step t e=some u → I u)
    (hs : I s) (hg : EachStep step G s es) : EachState step I s es :=
  globally_of_invariant hstep (fun _ _ ht _ => ht) hs hg

/-- Under an invariant, what holds of each guarded step holds along the run. -/
theorem eachStep_of_invariant {s : S} {es : List E}
    (hstep : ∀ t e u, I t → G t e u → step t e=some u → I u)
    (hh : ∀ t e u, I t → G t e u → step t e=some u → H t e u)
    (hs : I s) (hg : EachStep step G s es) : EachStep step H s es := by
  induction es generalizing s with
  | nil => trivial
  | cons e es ih =>
    intro t ht
    obtain ⟨hge,hrest⟩ := hg t ht
    exact ⟨hh s e t hs hge ht,ih (hstep s e t hs hge ht) hrest⟩

/-- If one guarded step keeps a property exactly when it meets a condition,
the property holds in every visited state exactly when every step meets it. -/
theorem eachState_iff_eachStep {P : S → Prop} {s : S} {es : List E}
    (hstep : ∀ t e u, I t → G t e u → step t e=some u → I u)
    (hiff : ∀ t e u, I t → G t e u → step t e=some u → P t → (P u ↔ H t e u))
    (hs : I s) (hp : P s) (hg : EachStep step G s es) :
    EachState step P s es ↔ EachStep step H s es := by
  induction es generalizing s with
  | nil => exact ⟨fun _ => trivial,fun _ => hp⟩
  | cons e es ih =>
    constructor
    · intro h t ht
      obtain ⟨hge,hrest⟩ := hg t ht
      have hpt : P t := (h.2 t ht).head
      exact ⟨(hiff s e t hs hge ht hp).mp hpt,(ih (hstep s e t hs hge ht) hpt hrest).mp (h.2 t ht)⟩
    · intro h
      refine ⟨hp,fun t ht => ?_⟩
      obtain ⟨hge,hrest⟩ := hg t ht
      have hpt : P t := (hiff s e t hs hge ht hp).mpr (h t ht).1
      exact (ih (hstep s e t hs hge ht) hpt hrest).mpr (h t ht).2

/-- An invariant that also speaks about everything put out so far. -/
theorem observe_invariant {J : S → List O → Prop} {out : S → E → S → List O}
    {s t : S} {es : List E} (seen : List O)
    (hstep : ∀ t e u seen, J t seen → G t e u → step t e=some u → J u (seen++out t e u))
    (hs : J s seen) (hg : EachStep step G s es) (hr : run step s es=some t) :
    J t (seen++observe step out s es) := by
  induction es generalizing s seen with
  | nil =>
    cases hr
    simpa only [observe,List.append_nil] using hs
  | cons e es ih =>
    obtain ⟨u,hu,hr⟩ := run_cons.mp hr
    obtain ⟨hge,hrest⟩ := hg u hu
    have hj := ih _ (hstep s e u seen hs hge hu) hrest hr
    simpa only [observe,hu,List.append_assoc] using hj

end Invariants

/-- Unwinding: when kept events step related states to related states and
deleted events leave the second state related, every run is matched by the
run of its kept events. -/
theorem run_restrict {step' : S' → E → Option S'} {keep : S → E → Bool}
    {G : S → E → S → Prop} {R : S → S' → Prop} {s t : S} {s' : S'} {es : List E}
    (hkeep : ∀ a e b a', R a a' → G a e b → step a e=some b → keep a e=true →
      ∃ b', step' a' e=some b' ∧ R b b')
    (hdrop : ∀ a e b a', R a a' → G a e b → step a e=some b → keep a e=false → R b a')
    (hR : R s s') (hg : EachStep step G s es) (hr : run step s es=some t) :
    ∃ t', run step' s' (restrict step keep s es)=some t' ∧ R t t' := by
  induction es generalizing s s' with
  | nil =>
    cases hr
    exact ⟨s',rfl,hR⟩
  | cons e es ih =>
    obtain ⟨u,hu,hr⟩ := run_cons.mp hr
    obtain ⟨hge,hrest⟩ := hg u hu
    rw [restrict,hu]
    dsimp only
    cases hk : keep s e with
    | true =>
      obtain ⟨u',hu',hRu⟩ := hkeep s e u s' hR hge hu hk
      obtain ⟨t',ht',hRt⟩ := ih hRu hrest hr
      exact ⟨t',by rw [if_pos rfl,run,hu']; exact ht',hRt⟩
    | false => exact ih (hdrop s e u s' hR hge hu hk) hrest hr

end Greenhouse.TemporalRuns
