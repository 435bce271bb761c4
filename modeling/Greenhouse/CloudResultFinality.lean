import Greenhouse.CloudCommandDrain

/-!
# Final results of commands

ReportCommandResult writes the status, the result and the completion time of
the command whatever it has stored before, and the status is also what the
queue looks at. So a result is final exactly as long as later reports repeat
it, and a command with a result stays out of the queue as long as no report
carries the status of a waiting command.
-/

namespace Greenhouse.CloudResultFinality

open KeyedTable CloudDatabase CloudHandlers CloudService TemporalRuns
open CloudCommandDelivery CloudCommandOrder CloudCommandDrain

variable {J : Type}

/-- No command with a result waits in the queue. -/
def ResultsLeftQueue (db : Database J) : Prop :=
  ∀ row∈db.commands.rows,row.completedAt.isSome=true → row.status≠"pending"

/-- A step of a report keeps the status, the result and the completion time of
every command that has a result. -/
def ReportKeepsResults (s : Service J) (e : Event J) (t : Service J) : Prop :=
  ∀ i o c gatewayId commandId status resultJson,e=.statement i o → s.calls i=some c →
    c.request=.reportCommandResult gatewayId commandId status resultJson →
    ∀ row∈s.db.commands.rows,row.completedAt.isSome=true →
      ∃ new∈t.db.commands.rows,new.commandId=row.commandId ∧ new.status=row.status ∧
        new.result=row.result ∧ new.completedAt=row.completedAt

/-- Whether an event ends the call with a number. -/
def endsCall (j : ℕ) : Event J → Bool
  | .reply i => i==j
  | .abort i => i==j
  | _ => false

/-- The call with a number does not return a command, in the rest of the run. -/
def CallOmits (json : Jsonb J) (id : String) (j : ℕ) : Service J → List (Event J) → Prop
  | _,[] => True
  | s,e::es => ∀ t,step json s e=some t →
    (∀ x,e=.reply j → t.returned=s.returned++[x] →
      ∀ gatewayId,id∉(handedOut gatewayId [x]).map CloudCommand.commandId) ∧
    (endsCall j e=false → CallOmits json id j t es)

/-- A CheckCommands call that starts now returns no command that has a result. -/
def StartedPollOmits (json : Jsonb J) (s : Service J) (rest : List (Event J)) : Prop :=
  ∀ id,HasResult s id → ∀ j gatewayId cursor es t,
    rest=.request j (.checkCommands gatewayId cursor)::es →
    step json s (.request j (.checkCommands gatewayId cursor))=some t → CallOmits json id j t es

/-- Recorded results are final: no report changes them, and no CheckCommands
call that starts afterwards returns their commands. -/
def ResultsFinal (json : Jsonb J) (s : Service J) (es : List (Event J)) : Prop :=
  EachStep (step json) ReportKeepsResults s es ∧ Globally (step json) (StartedPollOmits json) s es

/-- The update of a report that takes effect on a command of its gateway. -/
def Records (json : Jsonb J) (s : Service J) (e : Event J) (o : Outcome)
    (status resultJson id gatewayId : String) : Prop :=
  ∃ i c,e=.statement i o ∧ s.calls i=some c ∧
    c.frame.next=.inl (.recordResult status resultJson id gatewayId) ∧
    (Statement.exec json o s.db (.recordResult status resultJson id gatewayId)).isSome=true ∧
    Owns s gatewayId id

/-- No report that takes effect carries the status of a waiting command. -/
def RecordsLeaveQueue (json : Jsonb J) (s : Service J) (e : Event J) (_ : Service J) : Prop :=
  ∀ o status resultJson id gatewayId,Records json s e o status resultJson id gatewayId →
    status≠"pending"

/-- A report that takes effect on a command with a result repeats what is stored. -/
def RecordsRepeat (json : Jsonb J) (s : Service J) (e : Event J) (_ : Service J) : Prop :=
  ∀ o status resultJson id gatewayId,Records json s e o status resultJson id gatewayId →
    ∀ row∈s.db.commands.rows,row.commandId=id → row.completedAt.isSome=true →
      row.status=status ∧ row.result=json.parse resultJson ∧ row.completedAt=some o.now

variable {json : Jsonb J} {s t : Service J} {e : Event J}

/-- The database after the update of a report. -/
theorem commands_of_records {o : Outcome} {status resultJson id gatewayId : String}
    (h : Records json s e o status resultJson id gatewayId) (hs : step json s e=some t) :
    ∃ result,json.parse resultJson=some result ∧
      t.db.commands=recordResult o.now status result id gatewayId s.db.commands := by
  obtain ⟨i,c,rfl,hc,hn,hx,_⟩ := h
  cases step_transition hs with
  | fails call next exec =>
    cases hc.symm.trans call
    cases hn.symm.trans next
    rw [exec] at hx
    cases hx
  | executes call next exec =>
    cases hc.symm.trans call
    cases hn.symm.trans next
    rcases exec_commands exec with ⟨_,he,_⟩|⟨_,_,_,_,result,he,hp,hcom⟩|⟨_,_,he⟩
    · cases he
    · cases he
      exact ⟨result,hp,hcom⟩
    · exact absurd rfl (he _ _ _ _)

/-- A stored command after a step: it is unchanged, it has been marked
delivered by a poll, or a report has recorded its result. -/
theorem command_after_step (hs : step json s e=some t) {row : CommandRow J}
    (hr : row∈s.db.commands.rows) :
    row∈t.db.commands.rows ∨
    (∃ i o c,e=.statement i o ∧ s.calls i=some c ∧
      c.frame.next=.inl (.markDelivered row.commandId) ∧
      {row with status := "delivered",deliveredAt := some o.now}∈t.db.commands.rows) ∨
    ∃ o status resultJson result,
      Records json s e o status resultJson row.commandId row.gatewayId ∧
      json.parse resultJson=some result ∧
      {row with status := status,completedAt := some o.now,result := some result}∈
        t.db.commands.rows := by
  cases step_transition hs with
  | @executes i o c st db rows call next exec =>
    rcases exec_commands exec with ⟨id,rfl,hcom⟩|⟨status,resultJson,id,gatewayId,result,rfl,hp,hcom⟩|
      ⟨hcom,_⟩
    · by_cases hid : row.commandId=id
      · subst hid
        refine Or.inr (Or.inl ⟨i,o,c,rfl,call,next,?_⟩)
        dsimp only at hcom ⊢
        rw [hcom]
        exact mem_markDelivered.mpr ⟨row,hr,if_pos rfl⟩
      · refine Or.inl ?_
        dsimp only at hcom ⊢
        rw [hcom]
        exact mem_markDelivered.mpr ⟨row,hr,if_neg hid⟩
    · by_cases hm : row.commandId=id ∧ row.gatewayId=gatewayId
      · obtain ⟨rfl,rfl⟩ := hm
        refine Or.inr (Or.inr ⟨o,status,resultJson,result,
          ⟨i,c,rfl,call,next,by rw [exec]; rfl,row,hr,rfl,rfl⟩,hp,?_⟩)
        dsimp only at hcom ⊢
        rw [hcom]
        exact mem_recordResult.mpr ⟨row,hr,if_pos ⟨rfl,rfl⟩⟩
      · refine Or.inl ?_
        dsimp only at hcom ⊢
        rw [hcom]
        exact mem_recordResult.mpr ⟨row,hr,if_neg hm⟩
    · exact Or.inl (hcom ▸ hr)
  | insertCommand fresh => exact Or.inl (Table.mem_insertIgnore_of_mem hr)
  | request | fails | reply | receive | abort => exact Or.inl hr

/-- One step keeps results exactly when a report that takes effect on a command
with a result repeats it. -/
theorem reportKeepsResults_iff (hs : step json s e=some t) :
    ReportKeepsResults s e t ↔ RecordsRepeat json s e t := by
  constructor
  · intro h o status resultJson id gatewayId hrec row hr hid hd
    obtain ⟨result,hp,hcom⟩ := commands_of_records hrec hs
    obtain ⟨i,c,rfl,hc,hn,_,howns⟩ := hrec
    obtain ⟨new,hnew,hnid,hst,hres,hat⟩ :=
      h i o c _ _ _ _ rfl hc (c.wellFormed.of_recordResult hn).1 row hr hd
    have hg : row.gatewayId=gatewayId := howns.gateway_eq hr hid
    have hmem : {row with status := status,completedAt := some o.now,result := some result}∈
        t.db.commands.rows := by
      rw [hcom]
      exact mem_recordResult.mpr ⟨row,hr,if_pos ⟨hid,hg⟩⟩
    have he := t.db.commands.eq_of_key hnew hmem hnid
    rw [he] at hst hres hat
    exact ⟨hst.symm,hres.symm.trans hp.symm,hat.symm⟩
  · intro h i o c gatewayId commandId status resultJson he hc hq row hr hd
    rcases command_after_step hs hr with hsame|⟨i',o',c',he',hc',hn,_⟩|
      ⟨o',status',resultJson',result,hrec,hp,hnew⟩
    · exact ⟨row,hsame,rfl,rfl,rfl,rfl⟩
    · subst he
      cases he'
      cases hc.symm.trans hc'
      obtain ⟨_,_,_,_,hq',_⟩ := c.wellFormed.of_markDelivered hn
      rw [hq] at hq'
      cases hq'
    · obtain ⟨hst,hres,hat⟩ := h o' status' resultJson' _ _ hrec row hr rfl hd
      exact ⟨_,hnew,rfl,hst.symm,(hres.trans hp).symm,hat.symm⟩

/-- Commands with a result stay out of the queue while no report carries the
status of a waiting command. -/
theorem ResultsLeftQueue.step (h : ResultsLeftQueue s.db) (hg : RecordsLeaveQueue json s e t)
    (hs : step json s e=some t) : ResultsLeftQueue t.db := by
  intro row hr hd
  cases step_transition hs with
  | @executes i o c st db rows call next exec =>
    rcases exec_commands exec with ⟨id,rfl,hcom⟩|⟨status,resultJson,id,gatewayId,result,rfl,_,hcom⟩|
      ⟨hcom,_⟩
    · dsimp only at hcom hr
      rw [hcom] at hr
      obtain ⟨old,hold,rfl⟩ := mem_markDelivered.mp hr
      by_cases hid : old.commandId=id
      · rw [if_pos hid]
        exact fun hst => absurd hst (show "delivered"≠"pending" by decide)
      · rw [if_neg hid] at hd ⊢
        exact h old hold hd
    · dsimp only at hcom hr
      rw [hcom] at hr
      obtain ⟨old,hold,rfl⟩ := mem_recordResult.mp hr
      by_cases hm : old.commandId=id ∧ old.gatewayId=gatewayId
      · rw [if_pos hm]
        exact hg o status resultJson id gatewayId
          ⟨i,c,rfl,call,next,by rw [exec]; rfl,old,hold,hm.1,hm.2⟩
      · rw [if_neg hm] at hd ⊢
        exact h old hold hd
    · exact h row (hcom ▸ hr) hd
  | insertCommand fresh =>
    rcases Table.mem_insertIgnore.mp hr with hr|⟨rfl,_⟩
    · exact h row hr hd
    · cases hd
  | request | fails | reply | receive | abort => exact h row hr hd

/-- The call with a number has not read a command. -/
def NotRead (id : String) (j : ℕ) (s : Service J) : Prop :=
  ∃ c,s.calls j=some c ∧ id∉c.frame.commands.map CloudCommand.commandId

/-- A call does not read a command that has a result, unless it ends. -/
theorem NotRead.step {id : String} {j : ℕ} (h : NotRead id j s) (hleft : ResultsLeftQueue s.db)
    (hres : HasResult s id) (hs : step json s e=some t) (hend : endsCall j e=false) :
    NotRead id j t := by
  obtain ⟨c,hc,hid⟩ := h
  have hother : ∀ i d,i≠j → setCall s.calls i d j=some c :=
    fun i d hi => (setCall_of_ne hi.symm).trans hc
  cases step_transition hs with
  | @request i req free =>
    refine ⟨c,hother i _ ?_,hid⟩
    rintro rfl
    rw [hc] at free
    cases free
  | @fails i o d st call next exec =>
    by_cases hi : i=j
    · subst hi
      cases hc.symm.trans call
      refine ⟨_,setCall_self _ _ _,?_⟩
      rw [commands_resume_none.1]
      exact hid
    · exact ⟨c,hother i _ hi,hid⟩
  | @executes i o d st db rows call next exec =>
    by_cases hi : i=j
    · subst hi
      cases hc.symm.trans call
      refine ⟨_,setCall_self _ _ _,?_⟩
      rcases commands_resume next exec with ⟨hk,_⟩|⟨cursor,n,_,_,_,hr,_⟩
      · rw [hk]
        exact hid
      · rw [hr,List.map_map]
        intro hm
        obtain ⟨row,hrow,rfl⟩ := List.mem_map.mp hm
        obtain ⟨hmem,_,hp⟩ := mem_selectPending (List.mem_of_mem_take hrow)
        obtain ⟨row',hr',hid',hd⟩ := hres
        obtain rfl := s.db.commands.eq_of_key hr' hmem hid'
        exact hleft row' hmem hd hp
    · exact ⟨c,hother i _ hi,hid⟩
  | @reply i d response call next =>
    refine ⟨c,hother i _ fun hi => ?_,hid⟩
    rw [endsCall,hi,beq_self_eq_true] at hend
    cases hend
  | @abort i d call =>
    refine ⟨c,hother i _ fun hi => ?_,hid⟩
    rw [endsCall,hi,beq_self_eq_true] at hend
    cases hend
  | receive sent | insertCommand fresh => exact ⟨c,hc,hid⟩

/-- A call that has not read a command with a result does not return it. -/
theorem NotRead.callOmits {id : String} {j : ℕ} {es : List (Event J)} (h : NotRead id j s)
    (hleft : ResultsLeftQueue s.db) (hres : HasResult s id)
    (hg : EachStep (CloudService.step json) (RecordsLeaveQueue json) s es) :
    CallOmits json id j s es := by
  induction es generalizing s with
  | nil => trivial
  | cons e es ih =>
    intro t ht
    obtain ⟨hge,hrest⟩ := hg t ht
    refine ⟨fun x he hx gatewayId hm => ?_,
      fun hend => ih (h.step hleft hres ht hend) (hleft.step hge ht) (hres.step ht) hrest⟩
    subst he
    obtain ⟨c,hc,hid⟩ := h
    cases step_transition ht with
    | reply call next =>
      cases hc.symm.trans call
      obtain rfl := List.singleton_inj.mp (List.append_cancel_left hx)
      rw [handedOut_reply next] at hm
      obtain ⟨d,hd,_,hmem⟩ := mem_callIds hm
      cases hd
      exact hid hmem

/-- Along every run in which no report that takes effect carries the status of
a waiting command, results are final exactly when every report that takes
effect on a command with a result repeats what is stored. -/
theorem resultsFinal_iff_recordsRepeat (json : Jsonb J) (db : Database J) (es : List (Event J))
    (hdb : ResultsLeftQueue db)
    (hg : EachStep (step json) (RecordsLeaveQueue json) (Service.start db) es) :
    ResultsFinal json (Service.start db) es ↔
      EachStep (step json) (RecordsRepeat json) (Service.start db) es := by
  constructor
  · intro h
    exact eachStep_of_invariant (I:=fun _ => True) (fun _ _ _ _ _ _ => trivial)
      (fun _ _ _ _ hk hs => (reportKeepsResults_iff hs).mp hk) trivial h.1
  · intro h
    refine ⟨eachStep_of_invariant (I:=fun _ => True) (fun _ _ _ _ _ _ => trivial)
      (fun _ _ _ _ hk hs => (reportKeepsResults_iff hs).mpr hk) trivial h,
      globally_of_invariant (I:=fun s => ResultsLeftQueue s.db)
        (fun _ _ _ hi hge hs => hi.step hge hs) ?_ hdb hg⟩
    rintro s rest hi hrest id hid j gatewayId cursor es t rfl ht
    have hnot : NotRead id j t := by
      cases step_transition ht with
      | request free =>
        refine ⟨_,setCall_self _ _ _,?_⟩
        rw [commands_start]
        exact List.not_mem_nil
    obtain ⟨hge,hlater⟩ := hrest t ht
    exact hnot.callOmits (hi.step hge ht) (hid.step ht) hlater

/-- Reports that arrive with another status never take effect with that of a
waiting command. -/
theorem recordsLeaveQueue_of_nothingRequeued {db : Database J} {es : List (Event J)}
    (h : EachStep (step json) NothingRequeued (Service.start db) es) :
    EachStep (step json) (RecordsLeaveQueue json) (Service.start db) es := by
  refine eachStep_of_invariant (I:=OpenReportsLeave) (fun _ _ _ hi hg hs => hi.step hg hs)
    (fun s e t hi _ _ => ?_) nofun h
  rintro o status resultJson id gatewayId ⟨i,c,_,hc,hn,_⟩
  exact hi i c gatewayId id status resultJson hc (c.wellFormed.of_recordResult hn).1

/-- A poll and the report of its command. -/
def finishedRun : List (Event String) :=
  [.insertCommand ⟨"c1","gw","dev","{}",some 5⟩,.request 0 (.checkCommands "gw" ""),
    .statement 0 .success,.statement 0 .success,.statement 0 .success,.reply 0,
    .request 1 (.reportCommandResult "gw" "c1" "completed" "{}"),.statement 1 .success,
    .statement 1 .success,.reply 1]

/-- A conflicting report that has arrived late. -/
def lateReport : List (Event String) :=
  [.request 2 (.reportCommandResult "gw" "c1" "failed" "0"),.statement 2 .success,
    .statement 2 .success,.reply 2]

/-- The equivalence at the run with the conflicting report. -/
theorem resultsFinal_iff_lateReport :
    ResultsFinal .sample (Service.start Database.empty) (finishedRun++lateReport) ↔
      EachStep (step .sample) (RecordsRepeat .sample) (Service.start Database.empty)
        (finishedRun++lateReport) :=
  resultsFinal_iff_recordsRepeat .sample Database.empty (finishedRun++lateReport) nofun
    (recordsLeaveQueue_of_nothingRequeued (by decide))

/-- A report with the status of a waiting command, up to its update. -/
def requeueReport : List (Event String) :=
  [.request 2 (.reportCommandResult "gw" "c1" "pending" "0"),.statement 2 .success]

/-- A poll after the report has taken effect, up to its response. -/
def pollAgain : List (Event String) := [.statement 3 .success,.statement 3 .success,.statement 3 .success]

/-- The service before the update of the report takes effect. -/
def requeueState : Service String :=
  (run (step .sample) (Service.start Database.empty) (finishedRun++requeueReport)).get (by decide)

/-- The service after the report, before the poll. -/
def requeuedState : Service String :=
  (run (step .sample) requeueState [.statement 2 .success]).get (by decide)

/-- A call that omits a command omits it in its response. -/
theorem CallOmits.reply {id : String} {j : ℕ} {es : List (Event J)} {u : Service J}
    {x : Request×Response} (h : CallOmits json id j s (es++[.reply j]))
    (hends : ∀ e∈es,endsCall j e=false) (hr : run (step json) s es=some t)
    (hs : step json t (.reply j)=some u) (hx : u.returned=t.returned++[x]) (gatewayId : String) :
    id∉(handedOut gatewayId [x]).map CloudCommand.commandId := by
  induction es generalizing s with
  | nil =>
    cases hr
    exact (h u hs).1 x rfl hx gatewayId
  | cons e es ih =>
    obtain ⟨v,hv,hr⟩ := run_cons.mp hr
    exact ih ((h v hv).2 (hends e List.mem_cons_self))
      (fun e he => hends e (List.mem_cons_of_mem _ he)) hr

/-- A poll returns every command of its page again, whatever result it has. -/
theorem not_omits_page {gatewayId cursor : String} {outcomes : List Outcome}
    (hs : roundStep json gatewayId s (.poll cursor outcomes)=some t)
    (h : StartedPollOmits json s (Round.events gatewayId (.poll cursor outcomes)))
    {row : CommandRow J} (hr : row∈pendingRows gatewayId s.db)
    (hd : row.completedAt.isSome=true) : row∈pendingRows gatewayId t.db := by
  obtain ⟨page,hpage,hreturned⟩ := (poll_spec hs).1 cursor outcomes rfl
  obtain ⟨u,hu,hrun⟩ := run_cons.mp (run_of_succeeding hs)
  obtain ⟨v,hv,hreply⟩ := run_append.mp hrun
  obtain ⟨w,hw,hlast⟩ := run_cons.mp hreply
  cases hlast
  have hnone := h row.commandId ⟨row,(mem_pendingRows.mp hr).1,rfl,hd⟩ 0 gatewayId cursor _ u rfl hu
  rcases List.mem_append.mp (hpage.split.mem_iff.mp hr) with hmem|hmem
  · have hx : ∃ x,t.returned=v.returned++[x] := by
      cases step_transition hw with
      | reply call next => exact ⟨_,rfl⟩
    obtain ⟨x,hx⟩ := hx
    have hsame := (List.append_inj' (hreturned.symm.trans hx) rfl).2
    have homit := hnone.reply (fun e he => ?_) hv hw hx gatewayId
    · refine absurd ?_ homit
      rw [←hsame]
      simp only [handedOut,List.flatMap_cons,List.flatMap_nil,List.append_nil,if_true,List.map_map]
      exact List.mem_map_of_mem hmem
    · obtain ⟨o,_,rfl⟩ := List.mem_map.mp he
      rfl
  · exact hmem

/-- A waiting command that has a result is returned by some later poll. -/
theorem exists_returned_again (json : Jsonb J) {gatewayId : String} (hg : textOk gatewayId=true) (n : ℕ)
    (hn : (pendingRows gatewayId s.db).length≤n) (hfree : s.calls 0=none)
    (hids : ∀ row∈pendingRows gatewayId s.db,textOk row.commandId=true) {row : CommandRow J}
    (hr : row∈pendingRows gatewayId s.db) (hd : row.completedAt.isSome=true) :
    ∃ rest,¬Globally (step json) (StartedPollOmits json) s rest := by
  induction n generalizing s with
  | zero =>
    have hnil := List.eq_nil_of_length_eq_zero (Nat.le_zero.mp hn)
    rw [hnil] at hr
    exact absurd hr List.not_mem_nil
  | succ n ih =>
    by_contra hall
    have hall : ∀ rest,Globally (step json) (StartedPollOmits json) s rest :=
      fun rest => of_not_not fun hno => hall ⟨rest,hno⟩
    obtain ⟨outcomes,t,ht,hfree'⟩ := exists_poll json "" hfree hg hids
    obtain ⟨page,hpage,_⟩ := (poll_spec ht).1 "" outcomes rfl
    have hrest : ∀ r∈pendingRows gatewayId t.db,r∈pendingRows gatewayId s.db :=
      fun r hr => hpage.split.mem_iff.mpr (List.mem_append_right _ hr)
    have hpos := List.length_pos_of_mem hr
    have hlen := hpage.length_rest
    have hleft := not_omits_page ht (hall _).head hr hd
    obtain ⟨rest,hno⟩ := ih (by omega) hfree' (fun r hr => hids r (hrest r hr)) hleft
    exact hno ((hall (Round.events gatewayId (.poll "" outcomes)++rest)).suffix
      (run_of_succeeding ht))

/-- Every step that breaks the first condition can be continued to a poll that
returns a command with a result. -/
theorem exists_returned_again_of_not_leaveQueue (hs : step json s e=some t)
    (hn : ¬RecordsLeaveQueue json s e t)
    (hids : ∀ row∈t.db.commands.rows,textOk row.commandId=true ∧ textOk row.gatewayId=true) :
    ∃ rest,¬Globally (step json) (StartedPollOmits json) t rest := by
  by_contra hall
  apply hn
  intro o status resultJson id gatewayId hrec hst
  subst hst
  obtain ⟨result,_,hcom⟩ := commands_of_records hrec hs
  obtain ⟨i,c,rfl,hc,_,_,row,hr,rfl,rfl⟩ := hrec
  have hnew : {row with status := "pending",completedAt := some o.now,result := some result}∈
      t.db.commands.rows := by
    rw [hcom]
    exact mem_recordResult.mpr ⟨row,hr,if_pos ⟨rfl,rfl⟩⟩
  have hpending := mem_pendingRows.mpr ⟨hnew,rfl,rfl⟩
  have hok : ∀ row'∈pendingRows row.gatewayId t.db,textOk row'.commandId=true :=
    fun row' hr' => (hids row' (mem_pendingRows.mp hr').1).1
  cases hfree : t.calls 0 with
  | none =>
    exact hall (exists_returned_again json (hids _ hnew).2 _ le_rfl hfree hok hpending rfl)
  | some d =>
    have habort : Transition json t (.abort 0) _ := .abort hfree
    obtain ⟨rest,hno⟩ := exists_returned_again json (s:={t with calls := setCall t.calls 0 none})
      (hids _ hnew).2 _ le_rfl (setCall_self t.calls 0 none) hok hpending rfl
    exact hall ⟨.abort 0::rest,fun h => hno (h.2 _ habort.step)⟩

/-- The late report changes the result, and the command is polled again. -/
theorem result_not_final :
    ¬EachStep (step .sample) ReportKeepsResults (Service.start Database.empty)
        (finishedRun++requeueReport++[.statement 2 .success]) ∧
      ¬Globally (step .sample) (StartedPollOmits .sample) (Service.start Database.empty)
        (finishedRun++requeueReport++[.statement 2 .success]++
          .request 3 (.checkCommands "gw" "")::(pollAgain++[.reply 3])) := by
  constructor
  · intro h
    have hstep := (h.suffix (t:=requeueState) (Option.some_get _).symm requeuedState rfl).1
    have hdone : ∃ row∈requeueState.db.commands.rows,row.completedAt.isSome=true ∧
        row.status="completed" := by
      decide
    obtain ⟨row,hr,hd,hst⟩ := hdone
    obtain ⟨new,hnew,_,hnst,_⟩ := hstep 2 .success ((requeueState.calls 2).get (by decide)) "gw" "c1"
      "pending" "0" rfl (Option.some_get _).symm (by decide) row hr hd
    have hall : ∀ new∈requeuedState.db.commands.rows,new.status≠"completed" := by decide
    exact hall new hnew (hnst.trans hst)
  · intro h
    have hrun : run (step .sample) (Service.start Database.empty)
        (finishedRun++requeueReport++[.statement 2 .success])=some requeuedState := by
      rfl
    have hpoll := (h.suffix hrun).head "c1" (by decide) 3 "gw" "" (pollAgain++[.reply 3])
      ((step .sample requeuedState (.request 3 (.checkCommands "gw" ""))).get (by decide)) rfl
      (Option.some_get _).symm
    exact absurd (show "c1"∈_ by decide)
      (hpoll.reply (by decide) (Option.some_get (by decide)).symm (Option.some_get (by decide)).symm
        (x:=(.checkCommands "gw" "",.checkCommands [⟨"c1","dev","{}"⟩] "")) (by decide) "gw")

end Greenhouse.CloudResultFinality
