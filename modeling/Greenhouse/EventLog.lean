import Greenhouse.TemporalRuns
import Mathlib.Data.List.Induction

/-!
# Views that replay a log

The log of a run is what its steps put out. A view of the state that each step
changes by what it puts out replays the log. A register holds its last write;
an entry begins with the creation that finds none, and all that is written
later changes it.
-/

namespace Greenhouse.EventLog

open TemporalRuns

variable {S E O V A : Type*}

/-- The last value that is written, or the value at the beginning. -/
def lastWrite (write : O → Option V) (v : V) (log : List O) : V := (log.filterMap write).getLast?.getD v

/-- The creation of an entry, and the log behind it; an entry that exists has
the whole log behind it. -/
def lifetime (create : O → Option A) : Option A → List O → Option (A×List O)
  | some a,log => some (a,log)
  | none,[] => none
  | none,x::log => lifetime create (create x) log

/-- A log entry changes the entry that exists, or it may create one. -/
def record (create : O → Option A) (apply : A → O → A) (old : Option A) (x : O) : Option A :=
  old.elim (create x) fun a => some (apply a x)

/-- The last entry of the log writes, or what has been written before stays. -/
@[simp] theorem lastWrite_concat (write : O → Option V) (v : V) (log : List O) (x : O) :
    lastWrite write v (log++[x])=(write x).getD (lastWrite write v log) := by
  rw [lastWrite,List.filterMap_append]
  cases h : write x with
  | none =>
    rw [List.filterMap_cons_none h,List.filterMap_nil,List.append_nil]
    rfl
  | some w =>
    rw [List.filterMap_cons_some h,List.filterMap_nil,List.getLast?_concat]
    rfl

/-- A register after one entry. -/
@[simp] theorem lastWrite_singleton (write : O → Option V) (v : V) (x : O) :
    lastWrite write v [x]=(write x).getD v := lastWrite_concat write v [] x

/-- A register holds its first value or a value that has been written. -/
theorem lastWrite_mem (write : O → Option V) (v : V) (log : List O) :
    lastWrite write v log=v ∨ ∃ x∈log,write x=some (lastWrite write v log) := by
  cases h : (log.filterMap write).getLast? with
  | none =>
    rw [lastWrite,h]
    exact Or.inl rfl
  | some w =>
    obtain ⟨x,hx,hw⟩ := List.mem_filterMap.mp (List.mem_of_getLast? h)
    rw [lastWrite,h]
    exact Or.inr ⟨x,hx,hw⟩

section Entries

variable {create : O → Option A} {apply : A → O → A} {settle : A → List O → A} {old : Option A}
  {log : List O}

/-- Entries of the log are recorded one after the other. -/
theorem foldl_record_some (a : A) :
    log.foldl (record create apply) (some a)=some (log.foldl apply a) := by
  induction log generalizing a with
  | nil => rfl
  | cons x log ih => exact ih (apply a x)

/-- What is recorded is the creation with all that is written later. -/
theorem foldl_record (hsettle : ∀ a log,settle a log=log.foldl apply a) :
    log.foldl (record create apply) old=
      (lifetime create old log).map fun entry => settle entry.1 entry.2 := by
  induction log generalizing old with
  | nil =>
    cases old with
    | none => rfl
    | some a => exact congrArg some (hsettle a []).symm
  | cons x log ih =>
    cases old with
    | none => exact ih
    | some a =>
      rw [foldl_record_some,←hsettle]
      rfl

/-- What has been created first. -/
theorem map_fst_lifetime : (lifetime create old log).map Prod.fst=old.or (log.findSome? create) := by
  induction log generalizing old with
  | nil =>
    cases old with
    | none => rfl
    | some a => rfl
  | cons x log ih =>
    cases old with
    | none =>
      rw [lifetime,ih,Option.none_or,List.findSome?_cons]
      cases create x with
      | none => exact Option.none_or
      | some a => rfl
    | some a => rfl

/-- A change that is given for each log with one more entry. -/
theorem foldl_of_concat (hnil : ∀ a,settle a []=a)
    (hconcat : ∀ a log x,settle a (log++[x])=apply (settle a log) x) (a : A) (log : List O) :
    settle a log=log.foldl apply a := by
  induction log using List.reverseRecOn with
  | nil => exact hnil a
  | append_singleton log x ih => rw [hconcat,ih,List.foldl_concat]

end Entries

section Runs

variable {step : S → E → Option S} {out : S → E → S → List O} {s t : S} {es : List E}

/-- A view that each step changes by what it puts out replays the log. -/
theorem replay_run {view : S → V} {apply : V → O → V}
    (hstep : ∀ s e t,step s e=some t → view t=(out s e t).foldl apply (view s))
    (h : run step s es=some t) : view t=(observe step out s es).foldl apply (view s) := by
  induction es generalizing s with
  | nil => exact congrArg view (Option.some.inj h).symm
  | cons e es ih =>
    obtain ⟨u,hu,hr⟩ := run_cons.mp h
    rw [observe,hu,ih hr,hstep s e u hu,List.foldl_append]

/-- An entry after a run is its creation with all that is written later. -/
theorem lifetime_run (view : S → Option A) {create : O → Option A} (apply : A → O → A)
    (settle : A → List O → A) (hnil : ∀ a,settle a []=a)
    (hconcat : ∀ a log x,settle a (log++[x])=apply (settle a log) x)
    (hstep : ∀ s e t,step s e=some t → view t=(out s e t).foldl (record create apply) (view s))
    (h : run step s es=some t) :
    view t=(lifetime create (view s) (observe step out s es)).map
      fun entry => settle entry.1 entry.2 := by
  rw [replay_run hstep h,foldl_record (foldl_of_concat hnil hconcat)]

/-- An invariant that also speaks about the events so far. -/
theorem events_run {I : S → List E → Prop} (seen : List E)
    (hstep : ∀ s e t seen,I s seen → step s e=some t → I t (seen++[e])) (hs : I s seen)
    (h : run step s es=some t) : I t (seen++es) := by
  induction es generalizing s seen with
  | nil =>
    cases h
    rwa [List.append_nil]
  | cons e es ih =>
    obtain ⟨u,hu,hr⟩ := run_cons.mp h
    have hrest := ih (seen++[e]) (hstep s e u seen hs hu) hr
    rwa [List.append_assoc,List.singleton_append] at hrest

/-- A list to which each step appends holds all that has been put out. -/
theorem append_run (view : S → List V) {write : O → Option V}
    (hstep : ∀ s e t,step s e=some t → view t=view s++(out s e t).filterMap write)
    (h : run step s es=some t) : view t=view s++(observe step out s es).filterMap write := by
  induction es generalizing s with
  | nil =>
    rw [observe,List.filterMap_nil,List.append_nil]
    exact congrArg view (Option.some.inj h).symm
  | cons e es ih =>
    obtain ⟨u,hu,hr⟩ := run_cons.mp h
    rw [observe,hu,ih hr,hstep s e u hu,List.filterMap_append,List.append_assoc]

end Runs

end Greenhouse.EventLog
