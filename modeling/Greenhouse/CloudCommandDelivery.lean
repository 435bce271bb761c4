import Greenhouse.CloudService

/-!
# Delivery of commands to a gateway

CheckCommands marks a command delivered before its response is sent. A
command is lost from the queue whenever such an update takes effect before
some response with the command has been received, and a recorded result is
overwritten whenever such an update is still to come. The update filters on
the command id only.
-/

namespace Greenhouse.CloudCommandDelivery

open KeyedTable CloudDatabase CloudHandlers CloudService TemporalRuns

variable {J : Type}

/-- Every stored command waits for its first delivery. -/
def Untouched (db : Database J) : Prop :=
  ∀ row∈db.commands.rows, row.status="pending" ∧ row.completedAt=none

/-- Gateway, command and status of a result report that arrives. -/
def reported : Event J → Option (String×String×String)
  | .request _ (.reportCommandResult gatewayId commandId status _) => some (gatewayId,commandId,status)
  | _ => none

/-- A gateway reports results only for commands it has received. -/
def ReportsReceived (s : Service J) (e : Event J) (_ : Service J) : Prop :=
  ∀ r∈reported e,Received s r.1 r.2.1

/-- A gateway reports neither of the two queue states as a result. -/
def ReportsResults (_ : Service J) (e : Event J) (_ : Service J) : Prop :=
  ∀ r∈reported e,r.2.2≠"pending" ∧ r.2.2≠"delivered"

instance (s t : Service J) (e : Event J) : Decidable (ReportsReceived s e t) :=
  inferInstanceAs (Decidable (∀ r∈reported e,Received s r.1 r.2.1))

instance (s t : Service J) (e : Event J) : Decidable (ReportsResults s e t) :=
  inferInstanceAs (Decidable (∀ r∈reported e,r.2.2≠"pending" ∧ r.2.2≠"delivered"))

/-- Every command still waits in the queue, or its gateway has received it. -/
def NoCommandLost (s : Service J) : Prop :=
  ∀ row∈s.db.commands.rows,row.status="pending" ∨ Received s row.gatewayId row.commandId

instance : DecidablePred (NoCommandLost (J:=J)) := fun s =>
  inferInstanceAs (Decidable (∀ row∈s.db.commands.rows,_))

/-- Every update to delivered that takes effect comes after a response with
the command has been received by the gateway of the call. -/
def MarksReceived (json : Jsonb J) (s : Service J) (e : Event J) (_ : Service J) : Prop :=
  ∀ i o c id,e=.statement i o → s.calls i=some c → c.frame.next=.inl (.markDelivered id) →
    (Statement.exec json o s.db (.markDelivered id)).isSome=true →
    Received s c.request.gatewayId id

/-- The results being reported are for commands the gateway has received. -/
def OpenReportsReceived (s : Service J) : Prop :=
  ∀ i c gatewayId commandId status resultJson,s.calls i=some c →
    c.request=.reportCommandResult gatewayId commandId status resultJson →
    Received s gatewayId commandId

variable {json : Jsonb J} {s t : Service J} {e : Event J}

/-- Reports in progress stay reports of received commands. -/
theorem OpenReportsReceived.step (h : OpenReportsReceived s) (hg : ReportsReceived s e t)
    (hs : step json s e=some t) : OpenReportsReceived t := by
  intro i d gatewayId commandId status resultJson hd hq
  rcases request_of_step hs hd with ⟨c,hc,hr⟩|rfl
  · exact (h i c gatewayId commandId status resultJson hc (hr.trans hq)).step hs
  · rw [hq] at hg
    exact Received.step (hg _ rfl) hs

/-- A step that leaves the commands alone loses no command. -/
theorem NoCommandLost.of_commands_eq (h : NoCommandLost s) (hs : step json s e=some t)
    (hc : t.db.commands=s.db.commands) : NoCommandLost t := by
  intro row hr
  rw [hc] at hr
  exact (h row hr).imp_right fun hd => hd.step hs

/-- A step other than an effective update to delivered loses no command. -/
theorem NoCommandLost.step_of_not_mark (h : NoCommandLost s) (ho : OpenReportsReceived s)
    (hs : step json s e=some t)
    (hn : ∀ i o c id,e=.statement i o → s.calls i=some c →
      c.frame.next=.inl (.markDelivered id) → Statement.exec json o s.db (.markDelivered id)=none) :
    NoCommandLost t := by
  cases step_transition hs with
  | executes call next exec =>
    rcases exec_commands exec with ⟨id,rfl,_⟩|⟨status,resultJson,id,gatewayId,result,rfl,_,hc⟩|⟨hc,_⟩
    · rw [hn _ _ _ id rfl call next] at exec
      cases exec
    · intro row hr
      dsimp only at hc hr
      rw [hc] at hr
      obtain ⟨old,hold,rfl⟩ := mem_recordResult.mp hr
      obtain ⟨hq,_⟩ := FrameOf.of_recordResult (Call.wellFormed _) next
      by_cases hm : old.commandId=id ∧ old.gatewayId=gatewayId
      · rw [if_pos hm]
        obtain ⟨rfl,rfl⟩ := hm
        exact Or.inr (ho _ _ _ _ _ _ call hq)
      · rw [if_neg hm]
        exact h old hold
    · exact h.of_commands_eq hs hc
  | insertCommand fresh =>
    intro row hr
    rcases Table.mem_insertIgnore.mp hr with hr|⟨rfl,_⟩
    · exact h row hr
    · exact Or.inl rfl
  | request | fails | reply | receive | abort => exact h.of_commands_eq hs rfl

/-- An effective update to delivered keeps the law exactly when the gateway
has received the command. -/
theorem noCommandLost_mark {i : ℕ} {o : Outcome} {c : Call} {id : String} (h : NoCommandLost s)
    (ho : ReadsOwned s) (hs : step json s (.statement i o)=some t) (hc : s.calls i=some c)
    (hn : c.frame.next=.inl (.markDelivered id))
    (hx : (Statement.exec json o s.db (.markDelivered id)).isSome=true) :
    NoCommandLost t ↔ Received s c.request.gatewayId id := by
  obtain ⟨gatewayId,cursor,todo,commands,hq,hf⟩ := c.wellFormed.of_markDelivered hn
  have howns : Owns s c.request.gatewayId id := by
    obtain ⟨pre,he⟩ := c.wellFormed.todo_suffix
    have hid : id∈c.frame.commands.map CloudCommand.commandId := by
      rw [←he,hf]
      exact List.mem_append_right pre List.mem_cons_self
    obtain ⟨cmd,hcmd,rfl⟩ := List.mem_map.mp hid
    exact ho i c hc cmd hcmd
  cases step_transition hs with
  | fails call next exec =>
    cases hc.symm.trans call
    cases hn.symm.trans next
    rw [exec] at hx
    cases hx
  | executes call next exec =>
    cases hc.symm.trans call
    cases hn.symm.trans next
    rcases exec_commands exec with ⟨id',he,hm⟩|⟨_,_,_,_,_,he,_⟩|⟨_,he,_⟩
    · cases he
      constructor
      · intro ht
        obtain ⟨row,hrow,rfl,hg⟩ := howns
        have hnew : {row with status := "delivered",deliveredAt := some o.now}∈
            (markDelivered o.now row.commandId s.db.commands).rows :=
          mem_markDelivered.mpr ⟨row,hrow,if_pos rfl⟩
        rw [←hm] at hnew
        rcases ht _ hnew with hp|hr
        · exact absurd hp (show "delivered"≠"pending" by decide)
        · rw [←hg]
          exact hr
      · intro hr row hrow
        dsimp only at hrow
        rw [hm] at hrow
        obtain ⟨old,hold,rfl⟩ := mem_markDelivered.mp hrow
        by_cases hid : old.commandId=id
        · rw [if_pos hid]
          refine Or.inr ?_
          rw [howns.gateway_eq hold hid,hid]
          exact hr
        · rw [if_neg hid]
          exact h old hold
    · cases he
    · exact absurd rfl (he id)

/-- No command is lost along a run exactly when every update to delivered
takes effect only after the command has been received. -/
theorem noCommandLost_iff (json : Jsonb J) (db : Database J) (es : List (Event J))
    (hdb : Untouched db)
    (hg : EachStep (step json) ReportsReceived (Service.start db) es) :
    EachState (step json) NoCommandLost (Service.start db) es ↔
      EachStep (step json) (MarksReceived json) (Service.start db) es := by
  refine eachState_iff_eachStep (I:=fun s => ReadsOwned s ∧ OpenReportsReceived s)
    (fun s e t hi hr hs => ⟨hi.1.step hs,hi.2.step hr hs⟩) ?_
    ⟨readsOwned_start db,nofun⟩ (fun row hr => Or.inl (hdb row hr).1) hg
  intro s e t hi hr hs hp
  by_cases hm : ∃ i o c id,e=.statement i o ∧ s.calls i=some c ∧
      c.frame.next=.inl (.markDelivered id) ∧
      (Statement.exec json o s.db (.markDelivered id)).isSome=true
  · obtain ⟨i,o,c,id,rfl,hc,hn,hx⟩ := hm
    rw [noCommandLost_mark hp hi.1 hs hc hn hx]
    constructor
    · intro hrec i' o' c' id' he hc' hn' _
      cases he
      cases hc.symm.trans hc'
      cases hn.symm.trans hn'
      exact hrec
    · exact fun h => h i o c id rfl hc hn hx
  · have hnot : ∀ i o c id,e=.statement i o → s.calls i=some c →
        c.frame.next=.inl (.markDelivered id) →
        Statement.exec json o s.db (.markDelivered id)=none := by
      intro i o c id he hc hn
      by_contra hx
      exact hm ⟨i,o,c,id,he,hc,hn,Option.isSome_iff_ne_none.mpr hx⟩
    refine ⟨fun _ i o c id he hc hn hx => ?_,fun _ => hp.step_of_not_mark hi.2 hs hnot⟩
    rw [hnot i o c id he hc hn] at hx
    cases hx

/-- A poll whose response is lost after its only command has been marked. -/
def lostRun : List (Event String) :=
  [.insertCommand ⟨"c1","gw","dev","{}",some 5⟩,.request 0 (.checkCommands "gw" ""),
    .statement 0 .success,.statement 0 .success,.statement 0 .success,.reply 0]

/-- In the run with the lost response the gateway never gets the command. -/
theorem command_lost :
    EachStep (step .sample) ReportsReceived (Service.start Database.empty) lostRun ∧
      ¬EachState (step .sample) NoCommandLost (Service.start Database.empty) lostRun := by
  constructor <;> decide

/-- The equivalence at the run with the lost response. -/
theorem noCommandLost_iff_lostRun : Untouched (Database.empty (J:=String)) ∧
    (EachState (step .sample) NoCommandLost (Service.start Database.empty) lostRun ↔
      EachStep (step .sample) (MarksReceived .sample) (Service.start Database.empty) lostRun) :=
  ⟨nofun,noCommandLost_iff .sample Database.empty lostRun nofun (by decide)⟩

/-- A result has been recorded for the command. -/
def HasResult (s : Service J) (id : String) : Prop :=
  ∃ row∈s.db.commands.rows,row.commandId=id ∧ row.completedAt.isSome=true

/-- The stored status of the command. -/
def HasStatus (s : Service J) (id status : String) : Prop :=
  ∃ row∈s.db.commands.rows,row.commandId=id ∧ row.status=status

/-- A step of a CheckCommands call leaves the status of the command alone. -/
def PollKeepsStatus (id : String) (s : Service J) (e : Event J) (t : Service J) : Prop :=
  ∀ i o c gatewayId cursor,e=.statement i o → s.calls i=some c →
    c.request=.checkCommands gatewayId cursor → ∀ status,HasStatus s id status → HasStatus t id status

instance (s : Service J) (id : String) : Decidable (HasResult s id) :=
  inferInstanceAs (Decidable (∃ row∈s.db.commands.rows,_))

instance (s : Service J) (id status : String) : Decidable (HasStatus s id status) :=
  inferInstanceAs (Decidable (∃ row∈s.db.commands.rows,_))

/-- Once a command has a result, no later step of a CheckCommands call changes
its status. -/
def PollsKeepResults (json : Jsonb J) : Service J → List (Event J) → Prop :=
  Globally (step json) fun s rest =>
    ∀ id,HasResult s id → EachStep (step json) (PollKeepsStatus id) s rest

/-- No result is recorded for a command that some CheckCommands call has read
and still has to mark delivered. -/
def RecordsAfterMarks (json : Jsonb J) (s : Service J) (e : Event J) (_ : Service J) : Prop :=
  ∀ i o c status resultJson id gatewayId,e=.statement i o → s.calls i=some c →
    c.frame.next=.inl (.recordResult status resultJson id gatewayId) →
    (Statement.exec json o s.db (.recordResult status resultJson id gatewayId)).isSome=true →
    Owns s gatewayId id → ∀ j d,s.calls j=some d → id∉d.frame.todo

/-- The statuses being reported are results. -/
def OpenReportsResults (s : Service J) : Prop :=
  ∀ i c gatewayId commandId status resultJson,s.calls i=some c →
    c.request=.reportCommandResult gatewayId commandId status resultJson →
    status≠"pending" ∧ status≠"delivered"

/-- Reports in progress stay reports of results. -/
theorem OpenReportsResults.step (h : OpenReportsResults s) (hg : ReportsResults s e t)
    (hs : step json s e=some t) : OpenReportsResults t := by
  intro i d gatewayId commandId status resultJson hd hq
  rcases request_of_step hs hd with ⟨c,hc,hr⟩|rfl
  · exact h i c gatewayId commandId status resultJson hc (hr.trans hq)
  · rw [hq] at hg
    exact hg _ rfl

/-- A command with a result has left the queue, and no call still has to mark it. -/
def ResultsSettled (s : Service J) : Prop :=
  ∀ row∈s.db.commands.rows,row.completedAt.isSome=true →
    row.status≠"pending" ∧ ∀ j d,s.calls j=some d → row.commandId∉d.frame.todo

/-- A recorded result stays recorded. -/
theorem HasResult.step {id : String} (h : HasResult s id) (hs : step json s e=some t) :
    HasResult t id := by
  obtain ⟨row,hr,hid,hd⟩ := h
  cases step_transition hs with
  | executes call next exec =>
    rcases exec_commands exec with ⟨id',_,hc⟩|⟨status,_,id',gatewayId,result,_,_,hc⟩|⟨hc,_⟩
    · refine ⟨_,hc ▸ mem_markDelivered.mpr ⟨row,hr,rfl⟩,?_,?_⟩ <;> split
      exacts [hid,hid,hd,hd]
    · refine ⟨_,hc ▸ mem_recordResult.mpr ⟨row,hr,rfl⟩,?_,?_⟩ <;> split
      exacts [hid,hid,rfl,hd]
    · exact ⟨row,hc ▸ hr,hid,hd⟩
  | insertCommand fresh => exact ⟨row,Table.mem_insertIgnore_of_mem hr,hid,hd⟩
  | request | fails | reply | receive | abort => exact ⟨row,hr,hid,hd⟩

/-- What a call has to mark after a step it had to mark before, or it has just
read it as a pending command. -/
theorem todo_of_step (hs : step json s e=some t) {j : ℕ} {d : Call} (hd : t.calls j=some d)
    {id : String} (hid : id∈d.frame.todo) :
    (∃ c,s.calls j=some c ∧ id∈c.frame.todo) ∨
    (t.db=s.db ∧ ∃ row∈s.db.commands.rows,row.commandId=id ∧ row.status="pending") := by
  have hold : ∀ i {c c' : Call},s.calls i=some c → setCall s.calls i (some c') j=some d →
      c'.frame.todo<:+c.frame.todo → ∃ c,s.calls j=some c ∧ id∈c.frame.todo := by
    intro i c c' hc hd hsub
    rcases setCall_eq_some.mp hd with ⟨rfl,he⟩|⟨_,hj⟩
    · obtain rfl := Option.some.inj he
      exact ⟨c,hc,hsub.subset hid⟩
    · exact ⟨d,hj,hid⟩
  cases step_transition hs with
  | request free =>
    rcases setCall_eq_some.mp hd with ⟨_,he⟩|⟨_,hc⟩
    · obtain rfl := Option.some.inj he
      have ht := (Call.wellFormed _).todo_suffix.subset hid
      rw [commands_start] at ht
      exact absurd ht List.not_mem_nil
    · exact Or.inl ⟨d,hc,hid⟩
  | fails call next exec => exact Or.inl (hold _ call hd commands_resume_none.2)
  | executes call next exec =>
    rcases commands_resume next exec with ⟨_,hsub⟩|⟨cursor,n,_,_,rfl,hr,ht⟩
    · exact Or.inl (hold _ call hd hsub)
    · rcases setCall_eq_some.mp hd with ⟨_,he⟩|⟨_,hc⟩
      · obtain rfl := Option.some.inj he
        rw [ht,hr,List.map_map] at hid
        obtain ⟨row,hrow,rfl⟩ := List.mem_map.mp hid
        obtain ⟨hmem,_,hp⟩ := mem_selectPending (List.mem_of_mem_take hrow)
        exact Or.inr ⟨rfl,row,hmem,rfl,hp⟩
      · exact Or.inl ⟨d,hc,hid⟩
  | reply call next | abort call =>
    rcases setCall_eq_some.mp hd with ⟨_,he⟩|⟨_,hc⟩
    · cases he
    · exact Or.inl ⟨d,hc,hid⟩
  | receive sent | insertCommand fresh => exact Or.inl ⟨d,hd,hid⟩

/-- A row with a result after a step had one before, with the same status
unless some call had still to mark it, or the step records the result. -/
theorem result_of_step (hs : step json s e=some t) {row : CommandRow J}
    (hr : row∈t.db.commands.rows) (hd : row.completedAt.isSome=true) :
    (∃ old∈s.db.commands.rows,old.commandId=row.commandId ∧ old.completedAt.isSome=true ∧
      (row.status=old.status ∨ ∃ i c,s.calls i=some c ∧ row.commandId∈c.frame.todo)) ∨
    ∃ i o c gatewayId resultJson,e=.statement i o ∧ s.calls i=some c ∧
      c.request=.reportCommandResult gatewayId row.commandId row.status resultJson ∧
      c.frame.next=.inl (.recordResult row.status resultJson row.commandId gatewayId) ∧
      (Statement.exec json o s.db
        (.recordResult row.status resultJson row.commandId gatewayId)).isSome=true ∧
      Owns s gatewayId row.commandId := by
  cases step_transition hs with
  | executes call next exec =>
    rcases exec_commands exec with ⟨id,rfl,hc⟩|⟨status,resultJson,id,gatewayId,result,rfl,_,hc⟩|⟨hc,_⟩
    · dsimp only at hc hr
      rw [hc] at hr
      obtain ⟨old,hold,rfl⟩ := mem_markDelivered.mp hr
      by_cases hid : old.commandId=id
      · obtain ⟨_,_,todo,commands,_,hf⟩ := (Call.wellFormed _).of_markDelivered next
        rw [if_pos hid] at hd ⊢
        refine Or.inl ⟨old,hold,rfl,hd,Or.inr ⟨_,_,call,?_⟩⟩
        rw [hf,←hid]
        exact List.mem_cons_self
      · rw [if_neg hid] at hd ⊢
        exact Or.inl ⟨old,hold,rfl,hd,Or.inl rfl⟩
    · dsimp only at hc hr
      rw [hc] at hr
      obtain ⟨old,hold,rfl⟩ := mem_recordResult.mp hr
      obtain ⟨hq,_⟩ := FrameOf.of_recordResult (Call.wellFormed _) next
      by_cases hm : old.commandId=id ∧ old.gatewayId=gatewayId
      · obtain ⟨rfl,rfl⟩ := hm
        rw [if_pos ⟨rfl,rfl⟩]
        exact Or.inr ⟨_,_,_,_,resultJson,rfl,call,hq,next,by rw [exec]; rfl,old,hold,rfl,rfl⟩
      · rw [if_neg hm] at hd ⊢
        exact Or.inl ⟨old,hold,rfl,hd,Or.inl rfl⟩
    · dsimp only at hc hr
      rw [hc] at hr
      exact Or.inl ⟨row,hr,rfl,hd,Or.inl rfl⟩
  | insertCommand fresh =>
    rcases Table.mem_insertIgnore.mp hr with hr|⟨rfl,_⟩
    · exact Or.inl ⟨row,hr,rfl,hd,Or.inl rfl⟩
    · cases hd
  | request | fails | reply | receive | abort => exact Or.inl ⟨row,hr,rfl,hd,Or.inl rfl⟩

/-- One step that records no result ahead of a pending mark keeps the results settled. -/
theorem ResultsSettled.step (h : ResultsSettled s) (ho : OpenReportsResults s)
    (hg : RecordsAfterMarks json s e t) (hs : step json s e=some t) : ResultsSettled t := by
  intro row hr hd
  rcases result_of_step hs hr hd with
    ⟨old,hold,hid,hdone,hst⟩|⟨i,o,c,gatewayId,resultJson,rfl,hc,hq,hn,hx,howns⟩
  · obtain ⟨hp,ht⟩ := h old hold hdone
    rw [hid] at ht
    constructor
    · rcases hst with hst|⟨i,c,hc,hm⟩
      · rw [hst]
        exact hp
      · exact absurd hm (ht i c hc)
    · intro j d hj hm
      rcases todo_of_step hs hj hm with ⟨c,hc,hm⟩|⟨_,row',hr',hid',hp'⟩
      · exact ht j c hc hm
      · have he := s.db.commands.eq_of_key hold hr' (hid.trans hid'.symm)
        exact hp (he ▸ hp')
  · refine ⟨(ho i c gatewayId row.commandId row.status resultJson hc hq).1,fun j d hj hm => ?_⟩
    rcases todo_of_step hs hj hm with ⟨c',hc',hm⟩|⟨hdb,row',hr',hid',hp'⟩
    · exact hg i o c row.status resultJson row.commandId gatewayId rfl hc hn hx howns j c' hc' hm
    · rw [hdb] at hr
      have he := s.db.commands.eq_of_key hr hr' hid'.symm
      exact (h row hr hd).1 (he ▸ hp')

/-- While the results are settled, polls leave the status of a command with a
result alone. -/
theorem pollKeepsStatus_of_settled {id : String} (h : ResultsSettled s) (hid : HasResult s id)
    (hs : step json s e=some t) : PollKeepsStatus id s e t := by
  rintro i o c gatewayId cursor rfl hc hq status ⟨row,hr,rfl,rfl⟩
  obtain ⟨row',hr',hid',hd⟩ := hid
  obtain rfl := s.db.commands.eq_of_key hr' hr hid'
  cases step_transition hs with
  | fails call next exec => exact ⟨row',hr,rfl,rfl⟩
  | executes call next exec =>
    cases hc.symm.trans call
    rcases exec_commands exec with ⟨id,rfl,he⟩|⟨_,_,_,_,_,rfl,_,_⟩|⟨he,_⟩
    · obtain ⟨_,_,todo,commands,_,hf⟩ := c.wellFormed.of_markDelivered next
      have hne : row'.commandId≠id := by
        intro hh
        apply (h row' hr hd).2 i c hc
        rw [hf,hh]
        exact List.mem_cons_self
      exact ⟨row',he ▸ mem_markDelivered.mpr ⟨row',hr,if_neg hne⟩,rfl,rfl⟩
    · have hreq := (c.wellFormed.of_recordResult next).1
      rw [hq] at hreq
      cases hreq
    · exact ⟨row',he ▸ hr,rfl,rfl⟩

/-- Calls that never overlap never record a result ahead of a pending mark. -/
theorem recordsAfterMarks_of_atMostOneCall (h : AtMostOneCall s) :
    RecordsAfterMarks json s e t := by
  intro i o c status resultJson id gatewayId _ hc hn _ _ j d hj hid
  obtain rfl := h i c hc
  obtain rfl := h j d hj
  cases hc.symm.trans hj
  obtain ⟨hq,_⟩ := c.wellFormed.of_recordResult hn
  obtain ⟨_,_,hq'⟩ := c.wellFormed.of_todo hid
  rw [hq] at hq'
  cases hq'

/-- Polling undoes no recorded result in any run that records no result ahead
of a pending mark. -/
theorem pollsKeepResults_of_recordsAfterMarks (json : Jsonb J) (db : Database J)
    (es : List (Event J)) (hdb : Untouched db)
    (hf : EachStep (step json) ReportsResults (Service.start db) es)
    (hm : EachStep (step json) (RecordsAfterMarks json) (Service.start db) es) :
    PollsKeepResults json (Service.start db) es := by
  refine globally_of_invariant (I:=fun s => OpenReportsResults s ∧ ResultsSettled s)
    (fun s e t hi hg hs => ⟨hi.1.step hg.1 hs,hi.2.step hi.1 hg.2 hs⟩) ?_
    ⟨nofun,fun row hrow hd => ?_⟩ (hf.and hm)
  · intro s rest hi hg id hid
    refine eachStep_of_invariant
      (I:=fun s => (OpenReportsResults s ∧ ResultsSettled s) ∧ HasResult s id)
      (fun s e t hi hg hs =>
        ⟨⟨hi.1.1.step hg.1 hs,hi.1.2.step hi.1.1 hg.2 hs⟩,hi.2.step hs⟩)
      (fun s e t hi _ hs => pollKeepsStatus_of_settled hi.1.2 hi.2 hs) ⟨hi,hid⟩ hg
  · rw [(hdb row hrow).2] at hd
    cases hd

/-- One poll, its response received and the result of its command reported. -/
def reportedRun : List (Event String) :=
  [.insertCommand ⟨"c1","gw","dev","{}",some 5⟩,.request 0 (.checkCommands "gw" ""),
    .statement 0 .success,.statement 0 .success,.statement 0 .success,.reply 0,
    .receive (.checkCommands "gw" "",.checkCommands [⟨"c1","dev","{}"⟩] ""),
    .request 0 (.reportCommandResult "gw" "c1" "completed" "{}"),.statement 0 .success,
    .statement 0 .success,.reply 0,.request 0 (.checkCommands "gw" ""),.statement 0 .success,
    .statement 0 .success]

/-- The run with one poll after the other keeps its result. -/
theorem pollsKeepResults_reportedRun :
    PollsKeepResults .sample (Service.start Database.empty) reportedRun :=
  pollsKeepResults_of_recordsAfterMarks .sample Database.empty reportedRun nofun (by decide)
    (eachStep_of_invariant (I:=AtMostOneCall) (G:=OneAtATime)
      (fun _ _ _ hi hg hs => hi.step hg hs)
      (fun _ _ _ hi _ _ => recordsAfterMarks_of_atMostOneCall hi) nofun (by decide))

/-- Two polls read the command; the second marks it after its result is recorded. -/
def overwriteRun : List (Event String) :=
  [.insertCommand ⟨"c1","gw","dev","{}",some 5⟩,.request 0 (.checkCommands "gw" ""),
    .statement 0 .success,.statement 0 .success,.request 1 (.checkCommands "gw" ""),
    .statement 1 .success,.statement 1 .success,.statement 0 .success,.reply 0,
    .receive (.checkCommands "gw" "",.checkCommands [⟨"c1","dev","{}"⟩] ""),
    .request 2 (.reportCommandResult "gw" "c1" "completed" "{}"),.statement 2 .success,
    .statement 2 .success]

/-- The service when the result is recorded and the second poll goes on. -/
def overwriteState : Service String :=
  (run (step .sample) (Service.start Database.empty) overwriteRun).get (by decide)

/-- The second poll overwrites the reported status. -/
theorem result_overwritten :
    EachStep (step .sample) ReportsReceived (Service.start Database.empty)
        (overwriteRun++[.statement 1 .success]) ∧
      EachStep (step .sample) ReportsResults (Service.start Database.empty)
        (overwriteRun++[.statement 1 .success]) ∧
      ¬PollsKeepResults .sample (Service.start Database.empty)
        (overwriteRun++[.statement 1 .success]) := by
  refine ⟨by decide,by decide,fun h => ?_⟩
  have hq := (h.suffix (t:=overwriteState) (Option.some_get _).symm).head "c1" (by decide)
  have hlast := (hq ((step .sample overwriteState (.statement 1 .success)).get (by decide))
    (Option.some_get _).symm).1 1 .success ((overwriteState.calls 1).get (by decide)) "gw" "" rfl
    (Option.some_get _).symm (by decide) "completed" (by decide)
  exact absurd hlast (by decide)

/-- A call whose updates fail reaches any of its marks with the database unchanged. -/
theorem reach_mark (json : Jsonb J) {j : ℕ} {d : Call} {pre post : List String} {id : String}
    (hj : s.calls j=some d) (ht : d.frame.todo=pre++id::post) :
    ∃ es s' d',run (step json) s es=some s' ∧ s'.db=s.db ∧ s'.calls j=some d' ∧
      d'.request=d.request ∧ d'.frame.next=.inl (.markDelivered id) := by
  induction pre generalizing s d with
  | nil =>
    obtain ⟨commands,hf⟩ : ∃ commands,d.frame=.markCommands (id::post) commands := by
      cases hd : d.frame with
      | markCommands todo commands =>
        rw [hd] at ht
        exact ⟨commands,by rw [show todo=id::post from ht]⟩
      | _ => rw [hd] at ht; cases ht
    exact ⟨[],s,d,rfl,rfl,hj,rfl,by rw [hf]; rfl⟩
  | cons skip pre ih =>
    obtain ⟨commands,hf⟩ : ∃ commands,d.frame=.markCommands (skip::(pre++id::post)) commands := by
      cases hd : d.frame with
      | markCommands todo commands =>
        rw [hd] at ht
        exact ⟨commands,by rw [show todo=skip::(pre++id::post) from ht]⟩
      | _ => rw [hd] at ht; cases ht
    have hn : d.frame.next=.inl (.markDelivered skip) := by rw [hf]; rfl
    have hs : step json s (.statement j .failure)=
        some {s with calls := setCall s.calls j (some (d.resume json none))} :=
      Transition.step (Transition.fails hj hn (exec_fails rfl))
    have hres : (d.resume json none).frame.todo=pre++id::post := by
      dsimp only [Call.resume]
      rw [hf]
      rfl
    obtain ⟨es,s',d',hr,hdb,hc,hq,hd'⟩ :=
      ih (s:={s with calls := setCall s.calls j (some (d.resume json none))})
        (setCall_self s.calls j _) hres
    exact ⟨_::es,s',d',run_cons.mpr ⟨_,hs,hr⟩,hdb,hc,hq,hd'⟩

/-- The condition leaves out nothing harmless: from any state in which a
command has a result while a poll still has to mark it, the run can go on so
that the poll overwrites the status. -/
theorem exists_overwrite {j : ℕ} {d : Call} {gatewayId cursor id status : String}
    (hj : s.calls j=some d) (hq : d.request=.checkCommands gatewayId cursor)
    (hid : id∈d.frame.todo) (hok : textOk id=true) (hres : HasResult s id)
    (hst : HasStatus s id status) (hne : status≠"delivered") :
    ∃ rest,¬PollsKeepResults json s rest := by
  obtain ⟨pre,post,ht⟩ := List.append_of_mem hid
  obtain ⟨es,s',d',hr,hdb,hc,hq',hn⟩ := reach_mark json hj ht
  have hx : Statement.exec json .success s'.db (.markDelivered id)=
      some ({s'.db with commands := markDelivered 0 id s'.db.commands},[]) := by
    simp only [Statement.exec,Outcome.success,hok,Bool.not_false,Bool.and_self,if_true]
  have hs := Transition.step (Transition.executes hc hn hx)
  refine ⟨es++[.statement j .success],fun hkeep => ?_⟩
  have hlast := ((hkeep.head id hres).suffix hr _ hs).1
  obtain ⟨row,hrow,hrid,hrst⟩ := hlast j .success d' gatewayId cursor rfl hc (hq'.trans hq) status
    (by rw [HasStatus,hdb]; exact hst)
  obtain ⟨old,hold,he⟩ := mem_markDelivered.mp hrow
  by_cases hm : old.commandId=id
  · rw [if_pos hm] at he
    rw [←he] at hrst
    exact hne hrst.symm
  · rw [if_neg hm] at he
    rw [←he] at hrid
    exact hm hrid

/-- Every step that breaks the condition can be continued to an overwritten result. -/
theorem exists_overwrite_of_not_recordsAfterMarks (ho : OpenReportsResults s)
    (hs : step json s e=some t) (hn : ¬RecordsAfterMarks json s e t) :
    ∃ rest,¬PollsKeepResults json t rest := by
  by_contra hkeep
  apply hn
  rintro i o c status resultJson id gatewayId rfl hc hnext hx ⟨row,hr,rfl,hgw⟩ j d hj hid
  obtain ⟨hq,hf⟩ := c.wellFormed.of_recordResult hnext
  obtain ⟨gatewayId',cursor,hq'⟩ := d.wellFormed.of_todo hid
  have hne : j≠i := by
    rintro rfl
    cases hc.symm.trans hj
    rw [hq] at hq'
    cases hq'
  have hok : textOk row.commandId=true := by
    simp only [Statement.exec] at hx
    split at hx
    · rename_i hc
      simp only [Bool.and_eq_true] at hc
      exact hc.1.2
    · cases hx
  apply hkeep
  cases step_transition hs with
  | fails call next exec =>
    cases hc.symm.trans call
    cases hnext.symm.trans next
    rw [exec] at hx
    cases hx
  | executes call next exec =>
    cases hc.symm.trans call
    cases hnext.symm.trans next
    rcases exec_commands exec with ⟨_,he,_⟩|⟨_,_,_,_,result,he,_,hcom⟩|⟨_,_,he⟩
    · cases he
    · cases he
      have hnew : {row with status := status,completedAt := some o.now,result := some result}∈
          (recordResult o.now status result row.commandId gatewayId s.db.commands).rows :=
        mem_recordResult.mpr ⟨row,hr,if_pos ⟨rfl,hgw⟩⟩
      rw [←hcom] at hnew
      exact exists_overwrite ((setCall_of_ne hne).trans hj) hq' hid hok ⟨_,hnew,rfl,rfl⟩
        ⟨_,hnew,rfl,rfl⟩ (ho i c gatewayId row.commandId status resultJson hc hq).2
    · exact absurd rfl (he _ _ _ _)

end Greenhouse.CloudCommandDelivery
