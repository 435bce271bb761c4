import Greenhouse.CloudHistory

/-!
# The life of a command

The status of a command and its two times are written by different calls that
may overlap. Whatever their order, the times say how far the command has come:
it waits while it has neither, it is delivered while it has the first only, and
behind its completion stands a report of its own gateway. No command is marked
delivered before its gateway has polled.
-/

namespace Greenhouse.CloudCommandLifecycle

open KeyedTable CloudDatabase CloudHandlers CloudService TemporalRuns CloudHistory

variable {J : Type}

/-- The gateway has queried its pending commands. -/
def Polled (g : String) (log : List (Change J)) : Prop := ∃ now,.ran (.selectPending g) now∈log

/-- How far a command has come, as its times say it. -/
structure Lifecycle (log : List (Change J)) (r : CommandRow J) : Prop where
  /-- Without times the command waits. -/
  waiting : r.deliveredAt=none → r.completedAt=none → r.status="pending"
  /-- With the first time only it is delivered. -/
  delivered : r.deliveredAt≠none → r.completedAt=none → r.status="delivered"
  /-- A completed command has a status that its gateway has reported, or has
  been delivered once more. -/
  completed : r.completedAt≠none → (r.deliveredAt≠none ∧ r.status="delivered") ∨
    ∃ resultJson now,.ran (.recordResult r.status resultJson r.commandId r.gatewayId) now∈log
  /-- The result comes with the completion. -/
  result : r.result=none ↔ r.completedAt=none
  /-- Only a poll of its gateway delivers it. -/
  polled : r.deliveredAt≠none → Polled r.gatewayId log

/-- A stored command is as it has been inserted. -/
def AsInserted (r : CommandRow J) : Prop :=
  r.status="pending" ∧ r.deliveredAt=none ∧ r.completedAt=none ∧ r.result=none

/-- Every command is on its way, and a call has read commands only in a query
for its gateway. -/
structure OnTheirWay (s : Service J) (log : List (Change J)) : Prop where
  rows : ∀ r∈s.db.commands.rows,Lifecycle log r
  owned : ReadsOwned s
  queried : ∀ i c,s.calls i=some c → c.frame.commands≠[] → Polled c.request.gatewayId log

section Rows

variable {log log' : List (Change J)} {r : CommandRow J}

theorem Polled.mono {g : String} (h : Polled g log) (hsub : log⊆log') : Polled g log' := by
  obtain ⟨now,hnow⟩ := h
  exact ⟨now,hsub hnow⟩

/-- A longer history keeps how far a command has come. -/
theorem Lifecycle.mono (h : Lifecycle log r) (hsub : log⊆log') : Lifecycle log' r where
  waiting := h.waiting
  delivered := h.delivered
  completed := by
    intro hc
    rcases h.completed hc with hd|⟨resultJson,now,hm⟩
    · exact Or.inl hd
    · exact Or.inr ⟨resultJson,now,hsub hm⟩
  result := h.result
  polled := fun hd => (h.polled hd).mono hsub

/-- A command that has just been inserted. -/
theorem lifecycle_asInserted (h : AsInserted r) : Lifecycle log r where
  waiting := fun _ _ => h.1
  delivered := fun hd => absurd h.2.1 hd
  completed := fun hc => absurd h.2.2.1 hc
  result := iff_of_true h.2.2.2 h.2.2.1
  polled := fun hd => absurd h.2.1 hd

/-- A mark after a poll. -/
theorem Lifecycle.mark (h : Lifecycle log r) (hp : Polled r.gatewayId log) (now : Timestamp) :
    Lifecycle log {r with status := "delivered",deliveredAt := some now} where
  waiting := fun hd => absurd hd (Option.some_ne_none now)
  delivered := fun _ _ => rfl
  completed := fun _ => Or.inl ⟨Option.some_ne_none now,rfl⟩
  result := h.result
  polled := fun _ => hp

/-- A result of the gateway of the command. -/
theorem Lifecycle.report {status resultJson : String} {now : Timestamp} (h : Lifecycle log r)
    (hm : .ran (.recordResult status resultJson r.commandId r.gatewayId) now∈log) (value : J) :
    Lifecycle log {r with status := status,completedAt := some now,result := some value} where
  waiting := fun _ hc => absurd hc (Option.some_ne_none now)
  delivered := fun _ hc => absurd hc (Option.some_ne_none now)
  completed := fun _ => Or.inr ⟨resultJson,now,hm⟩
  result := iff_of_false (Option.some_ne_none value) (Option.some_ne_none now)
  polled := h.polled

end Rows

section Runs

variable {json : Jsonb J} {s t : Service J} {e : Event J} {log : List (Change J)}

/-- A call that has read commands has queried them in this step or before. -/
theorem OnTheirWay.queried_step (h : OnTheirWay s log) (hs : step json s e=some t) (i : ℕ) (d : Call)
    (hd : t.calls i=some d) (hne : d.frame.commands≠[]) :
    Polled d.request.gatewayId (log++changes json s e t) := by
  have hold : ∀ j c,s.calls j=some c → c.frame.commands≠[] →
      Polled c.request.gatewayId (log++changes json s e t) := fun j c hc hr =>
    (h.queried j c hc hr).mono (List.subset_append_left _ _)
  cases step_transition hs with
  | request free =>
    rcases setCall_eq_some.mp hd with ⟨_,he⟩|⟨_,hc⟩
    · obtain rfl := Option.some.inj he
      exact absurd (commands_start _) hne
    · exact hold i d hc hne
  | fails call next exec =>
    rcases setCall_eq_some.mp hd with ⟨_,he⟩|⟨_,hc⟩
    · obtain rfl := Option.some.inj he
      rw [commands_resume_none.1] at hne
      have hbefore := hold _ _ call hne
      exact hbefore
    · exact hold i d hc hne
  | @executes i o c st db rows call next exec =>
    rcases setCall_eq_some.mp hd with ⟨_,he⟩|⟨_,hc⟩
    · obtain rfl := Option.some.inj he
      rcases commands_resume next exec with ⟨hk,_⟩|⟨_,_,_,hf,_,_,_⟩
      · rw [hk] at hne
        have hbefore := hold _ _ call hne
        exact hbefore
      · refine ⟨o.now,List.mem_append_right _ ?_⟩
        rw [changes_executes call next exec]
        rw [hf] at next
        cases next
        exact List.mem_singleton_self _
    · exact hold _ d hc hne
  | reply call next | abort call =>
    rcases setCall_eq_some.mp hd with ⟨_,he⟩|⟨_,hc⟩
    · cases he
    · exact hold i d hc hne
  | receive sent | insertCommand fresh => exact hold i d hd hne

/-- A step takes each command on its way. -/
theorem OnTheirWay.rows_step (h : OnTheirWay s log) (hs : step json s e=some t) :
    ∀ r∈t.db.commands.rows,Lifecycle (log++changes json s e t) r := by
  have hkept : ∀ r∈s.db.commands.rows,Lifecycle (log++changes json s e t) r := fun r hr =>
    (h.rows r hr).mono (List.subset_append_left _ _)
  intro r hr
  cases step_transition hs with
  | @executes i o c st db rows call next exec =>
    have hran : changes json s (.statement i o)
        {s with db := db,calls := setCall s.calls i (some (c.resume json (some (rows,o.fetch))))}=
          [.ran st o.now] := changes_executes call next exec
    rcases exec_commands exec with ⟨id,rfl,hc⟩|⟨status,resultJson,id,gatewayId,value,rfl,_,hc⟩|⟨hc,_⟩
    · dsimp only at hr
      rw [hc] at hr
      obtain ⟨old,hold,rfl⟩ := mem_markDelivered.mp hr
      split
      · rename_i hid
        obtain ⟨_,_,todo,commands,_,hframe⟩ := c.wellFormed.of_markDelivered next
        have hread : id∈c.frame.commands.map CloudCommand.commandId :=
          c.wellFormed.todo_suffix.subset (c.wellFormed.mem_todo next)
        obtain ⟨cmd,hcmd,hcid⟩ := List.mem_map.mp hread
        have howner : old.gatewayId=c.request.gatewayId :=
          (h.owned i c call cmd hcmd).gateway_eq hold (hid.trans hcid.symm)
        refine (hkept old hold).mark ?_ o.now
        rw [howner]
        exact (h.queried i c call (List.ne_nil_of_mem hcmd)).mono (List.subset_append_left _ _)
      · exact hkept old hold
    · dsimp only at hr
      rw [hc] at hr
      obtain ⟨old,hold,rfl⟩ := mem_recordResult.mp hr
      split
      · rename_i hid
        have hreported : .ran (.recordResult status resultJson old.commandId old.gatewayId) o.now∈
            log++[Change.ran (.recordResult status resultJson id gatewayId) o.now] := by
          rw [hid.1,hid.2]
          exact List.mem_append_right _ (List.mem_singleton_self _)
        rw [←hran] at hreported
        exact (hkept old hold).report hreported value
      · exact hkept old hold
    · dsimp only at hr
      rw [hc] at hr
      exact hkept r hr
  | insertCommand fresh =>
    rcases Table.mem_insertIgnore.mp hr with hr|⟨rfl,_⟩
    · exact hkept r hr
    · exact lifecycle_asInserted ⟨rfl,rfl,rfl,rfl⟩
  | request | fails | reply | receive | abort => exact hkept r hr

/-- In every state of every run, each command is as far as its times say. -/
theorem lifecycle_of_history (json : Jsonb J) (db : Database J) (es : List (Event J)) (t : Service J)
    (hdb : ∀ r∈db.commands.rows,AsInserted r) (h : run (step json) (Service.start db) es=some t) :
    ∀ r∈t.db.commands.rows,Lifecycle (history json (Service.start db) es) r := by
  have hstart : OnTheirWay (Service.start db) [] :=
    ⟨fun r hr => lifecycle_asInserted (hdb r hr),readsOwned_start db,fun i c hc => by cases hc⟩
  have hway : OnTheirWay t ([]++history json (Service.start db) es) :=
    observe_invariant (J:=OnTheirWay) (G:=fun _ _ _ => True) []
      (fun s e u seen hseen _ hs => ⟨hseen.rows_step hs,hseen.owned.step hs,hseen.queried_step hs⟩)
      hstart (EachStep.trivial _ _) h
  exact hway.rows

/-- A command that is delivered and reported has come the whole way. -/
theorem lifecycle_of_history_commandRun :
    ∃ t,run (step .sample) (Service.start Database.empty) commandRun=some t ∧
      ∀ r∈t.db.commands.rows,
        Lifecycle (history .sample (Service.start Database.empty) commandRun) r :=
  ⟨_,rfl,lifecycle_of_history .sample Database.empty commandRun _
    (fun _ hr => absurd hr List.not_mem_nil) rfl⟩

end Runs

end Greenhouse.CloudCommandLifecycle
