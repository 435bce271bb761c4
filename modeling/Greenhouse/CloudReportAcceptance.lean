import Greenhouse.CloudService

/-!
# Accepted requests and what is stored

A handler with one write answers accepted=true whenever its write raises no
error. The inserts and the upsert then have stored the fields of the request;
an update that finds no command of the gateway raises no error either.
-/

namespace Greenhouse.CloudReportAcceptance

open KeyedTable CloudDatabase CloudHandlers CloudService TemporalRuns

variable {J : Type}

/-- The accepted field of a response. -/
def accepted : Response → Bool
  | .registerGateway accepted _ => accepted
  | .reportCommandResult accepted => accepted
  | .reportHealth accepted => accepted
  | .reportOtaStatus accepted => accepted
  | _ => false

/-- The write of a handler that answers with an accepted field. -/
def writeOf : Request → Option Statement
  | .registerGateway gatewayId softwareVersion => some (.upsertGateway gatewayId softwareVersion)
  | .uploadTelemetry _ _ => none
  | .checkCommands _ _ => none
  | .reportCommandResult gatewayId commandId status resultJson =>
    some (.recordResult status resultJson commandId gatewayId)
  | .reportHealth gatewayId payloadJson => some (.insertHealthReport gatewayId payloadJson)
  | .reportOtaStatus gatewayId updateId targetVersion status detail =>
    some (.insertOtaResult gatewayId updateId targetVersion status detail)

/-- The database contains what a request has reported. -/
def Recorded (json : Jsonb J) (db : Database J) : Request → Prop
  | .registerGateway gatewayId softwareVersion =>
    ∃ row∈db.gateways.rows,row.gatewayId=gatewayId ∧ row.softwareVersion=some softwareVersion
  | .uploadTelemetry _ _ => True
  | .checkCommands _ _ => True
  | .reportCommandResult gatewayId commandId status resultJson =>
    ∃ row∈db.commands.rows,row.commandId=commandId ∧ row.gatewayId=gatewayId ∧
      row.status=status ∧ ∃ result,json.parse resultJson=some result ∧ row.result=some result
  | .reportHealth gatewayId payloadJson =>
    ∃ row∈db.healthReports,row.gatewayId=gatewayId ∧ json.parse payloadJson=some row.payload
  | .reportOtaStatus gatewayId updateId targetVersion status detail =>
    ∃ row∈db.otaResults,row.gatewayId=gatewayId ∧ row.updateId=some updateId ∧
      row.targetVersion=some targetVersion ∧ row.status=status ∧ row.detail=some detail

/-- Right after a statement of a call, the database contains what the request
has reported, when the handler goes on to answer accepted=true. -/
def AcceptedRecorded (json : Jsonb J) (_ : Service J) (e : Event J) (t : Service J) : Prop :=
  ∀ i o d response,e=.statement i o → t.calls i=some d → d.frame.next=.inr response →
    accepted response=true → Recorded json t.db d.request

/-- The command of a result report is stored for its gateway. -/
def Known (db : Database J) : Request → Prop
  | .reportCommandResult gatewayId commandId _ _ =>
    ∃ row∈db.commands.rows,row.commandId=commandId ∧ row.gatewayId=gatewayId
  | _ => True

/-- Whenever the write of a handler raises no error, it is not a result report
for a command that is not stored for its gateway. -/
def WritesKnown (json : Jsonb J) (s : Service J) (e : Event J) (_ : Service J) : Prop :=
  ∀ i o c st,e=.statement i o → s.calls i=some c → c.frame.next=.inl st →
    writeOf c.request=some st → (st.exec json o s.db).isSome=true → Known s.db c.request

variable {json : Jsonb J} {s t : Service J} {e : Event J}

/-- Only a write that raised no error is answered with accepted=true. -/
theorem write_of_accepted (json : Jsonb J) {req : Request} {f : Frame} {st : Statement}
    {response : Response} {answer : Option (List (CommandRow J)×Fetch)} (h : FrameOf req f) (hn : f.next=.inl st)
    (hr : (f.resume json answer).next=.inr response) (ha : accepted response=true) :
    writeOf req=some st ∧ answer.isSome=true := by
  have hwrite : ∀ reply,((Frame.write st reply).resume json answer).next=.inr response →
      answer.isSome=true := by
    intro reply hw
    by_contra hne
    dsimp only [Frame.resume] at hw
    rw [if_neg hne] at hw
    cases hw
    cases ha
  cases h with
  | start =>
    cases req with
    | registerGateway =>
      cases hn
      exact ⟨rfl,hwrite _ hr⟩
    | uploadTelemetry gatewayId records =>
      cases records with
      | nil =>
        cases hr
        cases ha
      | cons => cases hr
    | _ => cases hr
  | recordResult | insertHealthReport | insertOtaResult =>
    cases hn
    exact ⟨rfl,hwrite _ hr⟩
  | insertRecords gatewayId done todo accepted' =>
    cases todo with
    | nil => cases hn
    | cons record todo =>
      cases todo with
      | nil =>
        cases hr
        cases ha
      | cons => cases hr
  | selectCommands gatewayId cursor =>
    dsimp only [Frame.resume] at hr
    split at hr
    · rename_i commands _
      cases commands with
      | nil =>
        cases hr
        cases ha
      | cons => cases hr
    · cases hr
      cases ha
  | markCommands gatewayId cursor todo commands hs =>
    cases todo with
    | nil => cases hn
    | cons id todo =>
      cases todo with
      | nil =>
        cases hr
        cases ha
      | cons => cases hr
  | returned => cases hn

/-- A write that raised no error is answered with accepted=true. -/
theorem accepted_of_write (json : Jsonb J) {req : Request} {f : Frame} {st : Statement}
    (answer : List (CommandRow J)×Fetch) (h : FrameOf req f) (hn : f.next=.inl st)
    (hw : writeOf req=some st) :
    ∃ response,(f.resume json (some answer)).next=.inr response ∧ accepted response=true := by
  cases h with
  | start =>
    cases req with
    | registerGateway => exact ⟨_,rfl,rfl⟩
    | uploadTelemetry | checkCommands => cases hw
    | _ =>
      cases hn
      cases hw
  | recordResult | insertHealthReport | insertOtaResult => exact ⟨_,rfl,rfl⟩
  | insertRecords | selectCommands | markCommands => cases hw
  | returned => cases hn

/-- What the write of a request stores: everything that has been reported, if
the command of a result report is known. -/
theorem recorded_write {o : Outcome} {db db' : Database J} {req : Request} {st : Statement}
    {rows : List (CommandRow J)} (hw : writeOf req=some st)
    (hx : st.exec json o db=some (db',rows)) : Recorded json db' req ↔ Known db req := by
  cases req with
  | uploadTelemetry | checkCommands => cases hw
  | registerGateway gatewayId softwareVersion =>
    cases hw
    simp only [Statement.exec,Option.ite_none_right_eq_some,Option.some.injEq,Prod.mk.injEq] at hx
    obtain ⟨_,rfl,_⟩ := hx
    refine iff_of_true ?_ trivial
    obtain ⟨row,hr,hk,hrow⟩ : ∃ row∈(upsertGateway o.now gatewayId softwareVersion db.gateways).rows,
        row.gatewayId=gatewayId ∧ (row=_ ∨ ∃ old,row=_) := Table.exists_insertOrUpdate
    refine ⟨row,hr,hk,?_⟩
    rcases hrow with rfl|⟨_,rfl⟩
    · rfl
    · rfl
  | reportCommandResult gatewayId commandId status resultJson =>
    cases hw
    simp only [Statement.exec,Option.ite_none_right_eq_some,Option.map_eq_some_iff,
      Prod.mk.injEq] at hx
    obtain ⟨_,result,hp,rfl,_⟩ := hx
    constructor
    · rintro ⟨row,hr,hid,hg,_⟩
      obtain ⟨old,hold,rfl⟩ := mem_recordResult.mp hr
      by_cases hm : old.commandId=commandId ∧ old.gatewayId=gatewayId
      · exact ⟨old,hold,hm⟩
      · rw [if_neg hm] at hid hg
        exact ⟨old,hold,hid,hg⟩
    · rintro ⟨row,hr,hid,hg⟩
      exact ⟨_,mem_recordResult.mpr ⟨row,hr,if_pos ⟨hid,hg⟩⟩,hid,hg,rfl,result,hp,rfl⟩
  | reportHealth gatewayId payloadJson =>
    cases hw
    simp only [Statement.exec,Option.ite_none_right_eq_some,Option.map_eq_some_iff,
      Prod.mk.injEq] at hx
    obtain ⟨_,payload,hp,rfl,_⟩ := hx
    exact iff_of_true ⟨_,List.mem_append_right _ (List.mem_singleton_self _),rfl,hp⟩ trivial
  | reportOtaStatus gatewayId updateId targetVersion status detail =>
    cases hw
    simp only [Statement.exec,Option.ite_none_right_eq_some,Option.some.injEq,Prod.mk.injEq] at hx
    obtain ⟨_,rfl,_⟩ := hx
    exact iff_of_true
      ⟨_,List.mem_append_right _ (List.mem_singleton_self _),rfl,rfl,rfl,rfl,rfl⟩ trivial

/-- One step stores what it accepts exactly when it writes to known commands. -/
theorem acceptedRecorded_iff (hs : step json s e=some t) :
    AcceptedRecorded json s e t ↔ WritesKnown json s e t := by
  cases step_transition hs with
  | @fails i o c st call next exec =>
    constructor
    · intro _ i' o' c' st' he hc hn _ hx
      cases he
      cases call.symm.trans hc
      cases next.symm.trans hn
      rw [exec] at hx
      cases hx
    · intro _ i' o' d response he hd hr ha
      cases he
      obtain rfl : c.resume json none=d := Option.some.inj ((setCall_self _ _ _).symm.trans hd)
      cases (write_of_accepted json c.wellFormed next hr ha).2
  | @executes i o c st db rows call next exec =>
    constructor
    · intro h i' o' c' st' he hc hn hw _
      cases he
      cases call.symm.trans hc
      cases next.symm.trans hn
      obtain ⟨response,hr,ha⟩ := accepted_of_write json (rows,o.fetch)
        c.wellFormed next hw
      exact (recorded_write hw exec).mp
        (h i o (c.resume json (some (rows,o.fetch))) response rfl (setCall_self _ _ _) hr ha)
    · intro h i' o' d response he hd hr ha
      cases he
      obtain rfl : c.resume json (some (rows,o.fetch))=d :=
        Option.some.inj ((setCall_self _ _ _).symm.trans hd)
      have hw := (write_of_accepted json c.wellFormed next hr ha).1
      exact (recorded_write hw exec).mpr (h i o c st rfl call next hw (by rw [exec]; rfl))
  | request | reply | receive | abort | insertCommand =>
    constructor
    · intro _ i o c st he
      cases he
    · intro _ i o d response he
      cases he

/-- Along every run, whatever is accepted is stored exactly when no write of a
result report that raises no error is for an unknown command. -/
theorem acceptedRecorded_iff_writesKnown (json : Jsonb J) (db : Database J) (es : List (Event J)) :
    EachStep (step json) (AcceptedRecorded json) (Service.start db) es ↔
      EachStep (step json) (WritesKnown json) (Service.start db) es := by
  constructor
  · exact eachStep_of_invariant (I:=fun _ => True) (fun _ _ _ _ _ _ => trivial)
      (fun _ _ _ _ h hs => (acceptedRecorded_iff hs).mp h) trivial
  · exact eachStep_of_invariant (I:=fun _ => True) (fun _ _ _ _ _ _ => trivial)
      (fun _ _ _ _ h hs => (acceptedRecorded_iff hs).mpr h) trivial

/-- A result report for a command that is not stored. -/
def unknownReport : List (Event String) :=
  [.request 0 (.reportCommandResult "gw" "c1" "completed" "{}"),.statement 0 .success]

/-- The service before the update of the report. -/
def unknownState : Service String :=
  (run (step .sample) (Service.start Database.empty) unknownReport).get (by decide)

/-- The report is accepted, and nothing is stored. -/
theorem accepted_unrecorded :
    (run (step .sample) unknownState [.statement 0 .success,.reply 0]).map Service.returned=
        some [(.reportCommandResult "gw" "c1" "completed" "{}",.reportCommandResult true)] ∧
      ¬EachStep (step .sample) (AcceptedRecorded .sample) (Service.start Database.empty)
        (unknownReport++[.statement 0 .success]) := by
  refine ⟨by decide,fun h => ?_⟩
  have hlast := ((h.suffix (t:=unknownState) (Option.some_get _).symm) _
    (Option.some_get (by decide)).symm).1
  obtain ⟨row,hr,_⟩ := hlast 0 .success _ (.reportCommandResult true) rfl
    (Option.some_get (by decide)).symm (by decide) rfl
  exact absurd hr List.not_mem_nil

end Greenhouse.CloudReportAcceptance
