import Mathlib.Data.List.Basic

/-!
# Shell scripts under power loss

A script is built from atomic commands, commands that do not return, branches
and loops over a list that is fixed when the loop starts. Its trace lists the
state after every command, so a script that loses power is a trace cut at some
point. Rules in the manner of a program logic give what holds in every visited
state, in the final state of a script that falls through, and in the final
state of one that leaves.
-/

namespace Greenhouse.CrashScript

variable {σ ω : Type}

/-- Scripts over a state, with loops over items. -/
inductive Script (σ ω : Type)
  /-- One atomic command. -/
  | command (f : σ → σ)
  /-- An atomic command that does not return. -/
  | leave (f : σ → σ)
  /-- The empty script. -/
  | skip
  /-- One script after another. -/
  | seq (first second : Script σ ω)
  /-- A test without effect and its two branches. -/
  | branch (test : σ → Bool) (yes no : Script σ ω)
  /-- A loop over the items found at its start. -/
  | each (items : σ → List ω) (body : ω → Script σ ω)

/-- A block of scripts in order. -/
def Script.block : List (Script σ ω) → Script σ ω
  | [] => .skip
  | p::ps => .seq p (block ps)

/-- How a script ends. -/
inductive Ending (σ : Type)
  /-- The script falls through in a state. -/
  | falls (s : σ)
  /-- A command that does not return has led to a state. -/
  | leaves (s : σ)

/-- The final state. -/
def Ending.state : Ending σ → σ
  | falls s => s
  | leaves s => s

/-- The states after each command, and the ending. -/
structure Trace (σ : Type) where
  /-- States after the commands, in order. -/
  visited : List σ
  /-- How the script ends. -/
  ending : Ending σ

/-- Continue a trace that falls through. -/
def Trace.andThen (t : Trace σ) (next : σ → Trace σ) : Trace σ :=
  match t.ending with
  | .falls s => ⟨t.visited++(next s).visited,(next s).ending⟩
  | .leaves s => ⟨t.visited,.leaves s⟩

/-- The rounds of a loop in order, up to one that leaves. -/
def loop (round : ω → σ → Trace σ) : List ω → σ → Trace σ
  | [],s => ⟨[],.falls s⟩
  | x::xs,s => (round x s).andThen (loop round xs)

/-- Execute a script without interruption. -/
def Script.trace : Script σ ω → σ → Trace σ
  | command f,s => ⟨[f s],.falls (f s)⟩
  | leave f,s => ⟨[f s],.leaves (f s)⟩
  | skip,s => ⟨[],.falls s⟩
  | seq first second,s => (first.trace s).andThen second.trace
  | branch test yes no,s => if test s=true then yes.trace s else no.trace s
  | each items body,s => loop (fun x => (body x).trace) (items s) s

/-- The state in which a script stops that loses power after some commands. -/
def Script.cut (p : Script σ ω) (s : σ) (commands : ℕ) : σ :=
  ((p.trace s).visited.take commands).getLastD s

/-- A script stops in its start state or in a visited state. -/
theorem Script.cut_eq_or_mem (p : Script σ ω) (s : σ) (commands : ℕ) :
    p.cut s commands=s ∨ p.cut s commands∈(p.trace s).visited := by
  rw [Script.cut,List.getLastD_eq_getLast?]
  cases h : ((p.trace s).visited.take commands).getLast? with
  | none => exact Or.inl rfl
  | some t => exact Or.inr (List.mem_of_mem_take (List.mem_of_getLast? h))

/-- The last state of a trace is the state of its ending. -/
def Trace.Closed (s : σ) (t : Trace σ) : Prop := t.visited.getLastD s=t.ending.state

/-- A closed trace that is continued by closed traces is closed. -/
theorem Trace.Closed.andThen {s : σ} {t : Trace σ} {next : σ → Trace σ} (h : t.Closed s)
    (hnext : ∀ u,(next u).Closed u) : (t.andThen next).Closed s := by
  unfold Trace.andThen Trace.Closed at *
  cases he : t.ending with
  | leaves u =>
    rw [he] at h
    exact h
  | falls u =>
    rw [he] at h
    have hu := hnext u
    have hlast : t.visited.getLastD s=u := h
    have happ : (t.visited++(next u).visited).getLastD s=(next u).visited.getLastD u := by
      rw [←hlast]
      simp only [List.getLastD_eq_getLast?,List.getLast?_append]
      cases (next (t.visited.getLast?.getD s)).visited.getLast? <;> rfl
    exact happ.trans hu

theorem loop_closed {round : ω → σ → Trace σ} (h : ∀ x s,(round x s).Closed s) (xs : List ω)
    (s : σ) : (loop round xs s).Closed s := by
  induction xs generalizing s with
  | nil => rfl
  | cons x xs ih => exact (h x s).andThen ih

/-- An uninterrupted script ends in the last state it visits. -/
theorem Script.trace_closed (p : Script σ ω) (s : σ) : (p.trace s).Closed s := by
  induction p generalizing s with
  | command f | leave f | skip => rfl
  | seq first second hfirst hsecond => exact (hfirst s).andThen hsecond
  | branch test yes no hyes hno =>
    dsimp only [Script.trace]
    split
    · exact hyes s
    · exact hno s
  | each items body hbody => exact loop_closed hbody (items s) s

/-- A script with power for all its commands ends. -/
theorem Script.cut_all {p : Script σ ω} {s : σ} {commands : ℕ}
    (h : (p.trace s).visited.length≤commands) : p.cut s commands=(p.trace s).ending.state := by
  rw [Script.cut,List.take_of_length_le h]
  exact p.trace_closed s

/-- The first property holds in every visited state, the second in the final
state of a trace that falls through, the third in that of one that leaves. -/
structure Trace.Meets (t : Trace σ) (always falls leaves : σ → Prop) : Prop where
  visited : ∀ s∈t.visited,always s
  ending :
    match t.ending with
    | .falls s => falls s
    | .leaves s => leaves s

section Rules

variable {always falls leaves : σ → Prop} {s : σ}

/-- The rule for a command. -/
theorem meets_command {f : σ → σ} (ha : always (f s)) (hf : falls (f s)) :
    ((Script.command f : Script σ ω).trace s).Meets always falls leaves :=
  ⟨fun _ ht => List.mem_singleton.mp ht ▸ ha,hf⟩

/-- The rule for a command that does not return. -/
theorem meets_leave {f : σ → σ} (ha : always (f s)) (hl : leaves (f s)) :
    ((Script.leave f : Script σ ω).trace s).Meets always falls leaves :=
  ⟨fun _ ht => List.mem_singleton.mp ht ▸ ha,hl⟩

/-- The rule for the empty script. -/
theorem meets_skip (hf : falls s) :
    ((Script.skip : Script σ ω).trace s).Meets always falls leaves :=
  ⟨nofun,hf⟩

/-- The rule for a continued trace. -/
theorem Trace.Meets.andThen {between : σ → Prop} {t : Trace σ} {next : σ → Trace σ}
    (h : t.Meets always between leaves) (hnext : ∀ u,between u → (next u).Meets always falls leaves) :
    (t.andThen next).Meets always falls leaves := by
  obtain ⟨hv,he⟩ := h
  unfold Trace.andThen
  cases ht : t.ending with
  | leaves u =>
    rw [ht] at he
    exact ⟨hv,he⟩
  | falls u =>
    rw [ht] at he
    obtain ⟨hv',he'⟩ := hnext u he
    refine ⟨fun w hw => ?_,he'⟩
    rcases List.mem_append.mp hw with hw|hw
    · exact hv w hw
    · exact hv' w hw

/-- The rule for one script after another. -/
theorem meets_seq (between : σ → Prop) {first second : Script σ ω}
    (h : (first.trace s).Meets always between leaves)
    (hnext : ∀ u,between u → (second.trace u).Meets always falls leaves) :
    ((Script.seq first second).trace s).Meets always falls leaves :=
  h.andThen hnext

/-- The rule for a command with more to come: go on from the state after it. -/
theorem meets_command_seq {f : σ → σ} {rest : Script σ ω} (ha : always (f s))
    (h : (rest.trace (f s)).Meets always falls leaves) :
    ((Script.seq (.command f) rest).trace s).Meets always falls leaves :=
  meets_seq (fun t => t=f s) (meets_command ha rfl) fun _ hu => hu ▸ h

/-- The rule for a branch. -/
theorem meets_branch {test : σ → Bool} {yes no : Script σ ω}
    (hyes : test s=true → (yes.trace s).Meets always falls leaves)
    (hno : test s=false → (no.trace s).Meets always falls leaves) :
    ((Script.branch test yes no).trace s).Meets always falls leaves := by
  dsimp only [Script.trace]
  cases h : test s with
  | true => exact hyes h
  | false => exact hno h

/-- The rule for a loop, with an invariant over the remaining items. -/
theorem meets_each {items : σ → List ω} {body : ω → Script σ ω} (I : List ω → σ → Prop)
    (hstart : I (items s) s)
    (hround : ∀ x xs t,I (x::xs) t → ((body x).trace t).Meets always (I xs) leaves)
    (hend : ∀ t,I [] t → falls t) :
    ((Script.each items body).trace s).Meets always falls leaves := by
  dsimp only [Script.trace]
  generalize items s=xs at hstart
  induction xs generalizing s with
  | nil => exact ⟨nofun,hend s hstart⟩
  | cons x xs ih => exact (hround x xs s hstart).andThen fun u hu => ih hu

end Rules

end Greenhouse.CrashScript
