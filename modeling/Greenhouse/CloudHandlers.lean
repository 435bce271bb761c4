import Greenhouse.CloudDatabase

/-!
# The RPC handlers as resumable calls

A handler runs its statements one at a time, each in its own transaction, so
a call in progress is the statement it waits for together with its local
variables. Every handler except RegisterGateway first updates last_seen and
ignores the answer. The two loops are the insertion of the uploaded records
and the update of the commands that a query returned.
-/

namespace Greenhouse.CloudHandlers

open CloudDatabase

/-- The requests of GatewayCloudService. -/
inductive Request
  | registerGateway (gatewayId softwareVersion : String)
  | uploadTelemetry (gatewayId : String) (records : List TelemetryRecord)
  | checkCommands (gatewayId lastCommandCursor : String)
  | reportCommandResult (gatewayId commandId status resultJson : String)
  | reportHealth (gatewayId payloadJson : String)
  | reportOtaStatus (gatewayId updateId targetVersion status detail : String)
  deriving DecidableEq

/-- The responses of GatewayCloudService, or the error of a failed call. -/
inductive Response
  | registerGateway (accepted : Bool) (configVersion : String)
  | uploadTelemetry (acceptedLocalIds : List Int64)
  | checkCommands (commands : List CloudCommand) (nextCommandCursor : String)
  | reportCommandResult (accepted : Bool)
  | reportHealth (accepted : Bool)
  | reportOtaStatus (accepted : Bool)
  | error
  deriving DecidableEq

/-- The gateway_id field that every request carries. -/
def Request.gatewayId : Request → String
  | registerGateway gatewayId _ => gatewayId
  | uploadTelemetry gatewayId _ => gatewayId
  | checkCommands gatewayId _ => gatewayId
  | reportCommandResult gatewayId _ _ _ => gatewayId
  | reportHealth gatewayId _ => gatewayId
  | reportOtaStatus gatewayId _ _ _ _ => gatewayId

/-- A call in progress: its next statement and its live local variables. -/
inductive Frame
  /-- About to update last_seen; the answer is ignored. -/
  | touch (gatewayId : String) (rest : Frame)
  /-- About to run the only write of the handler, answering reply when it succeeds. -/
  | write (st : Statement) (reply : Response)
  /-- In the loop over the records, with the ids accepted so far. -/
  | insertRecords (gatewayId : String) (todo : List TelemetryRecord) (accepted : List Int64)
  /-- About to query the pending commands. -/
  | selectCommands (gatewayId : String)
  /-- In the loop over the command ids, with the commands to return. -/
  | markCommands (todo : List String) (commands : List CloudCommand)
  /-- The handler has returned. -/
  | returned (reply : Response)

/-- RegisterGateway has one write and no last_seen update of its own. -/
def registerGateway (gatewayId softwareVersion : String) : Frame :=
  .write (.upsertGateway gatewayId softwareVersion) (.registerGateway true "v1")

/-- UploadTelemetry inserts the records one by one. -/
def uploadTelemetry (gatewayId : String) (records : List TelemetryRecord) : Frame :=
  .touch gatewayId (.insertRecords gatewayId records [])

/-- CheckCommands queries the pending commands; the cursor is not read. -/
def checkCommands (gatewayId : String) : Frame := .touch gatewayId (.selectCommands gatewayId)

/-- A report updates last_seen and then makes one write. -/
def report (gatewayId : String) (st : Statement) (reply : Response) : Frame :=
  .touch gatewayId (.write st reply)

/-- ReportCommandResult updates the row of the command. -/
def reportCommandResult (gatewayId commandId status resultJson : String) : Frame :=
  report gatewayId (.recordResult status resultJson commandId gatewayId) (.reportCommandResult true)

/-- ReportHealth inserts a row. -/
def reportHealth (gatewayId payloadJson : String) : Frame :=
  report gatewayId (.insertHealthReport gatewayId payloadJson) (.reportHealth true)

/-- ReportOtaStatus inserts a row. -/
def reportOtaStatus (gatewayId updateId targetVersion status detail : String) : Frame :=
  report gatewayId (.insertOtaResult gatewayId updateId targetVersion status detail)
    (.reportOtaStatus true)

/-- The handler of a request, before its first statement. -/
def Request.handler : Request → Frame
  | .registerGateway gatewayId softwareVersion => CloudHandlers.registerGateway gatewayId softwareVersion
  | .uploadTelemetry gatewayId records => CloudHandlers.uploadTelemetry gatewayId records
  | .checkCommands gatewayId _ => CloudHandlers.checkCommands gatewayId
  | .reportCommandResult gatewayId commandId status resultJson =>
    CloudHandlers.reportCommandResult gatewayId commandId status resultJson
  | .reportHealth gatewayId payloadJson => CloudHandlers.reportHealth gatewayId payloadJson
  | .reportOtaStatus gatewayId updateId targetVersion status detail =>
    CloudHandlers.reportOtaStatus gatewayId updateId targetVersion status detail

/-- The statement a call waits for, or the response of a handler that is done. -/
def Frame.next : Frame → Statement⊕Response
  | touch gatewayId _ => .inl (.touchGateway gatewayId)
  | write st _ => .inl st
  | insertRecords gatewayId (record::_) _ => .inl (.insertTelemetry gatewayId record)
  | insertRecords _ [] accepted => .inr (.uploadTelemetry accepted)
  | selectCommands gatewayId => .inl (.selectPending gatewayId)
  | markCommands (id::_) _ => .inl (.markDelivered id)
  | markCommands [] commands => .inr (.checkCommands commands "")
  | returned reply => .inr reply

variable {J : Type}

/-- The columns of a command that the query returns. -/
def cloudCommand (json : Jsonb J) (r : CommandRow J) : CloudCommand :=
  ⟨r.commandId,r.targetDeviceId,json.print r.payload⟩

/-- The loop over the selected rows. An error that ends the rows early is not
looked at; an error in Scan ends the handler. -/
def scanRows (json : Jsonb J) (rows : List (CommandRow J)) : Fetch → Option (List CloudCommand)
  | .rows n => some ((rows.take n).map (cloudCommand json))
  | .scanError n => if n<rows.length then none else some (rows.map (cloudCommand json))

/-- Continue a call with the answer to its statement; none is an SQL error. -/
def Frame.resume (json : Jsonb J) (answer : Option (List (CommandRow J)×Fetch)) : Frame → Frame
  | touch _ rest => rest
  | write _ reply => if answer.isSome=true then .returned reply else .returned .error
  | insertRecords gatewayId (record::todo) accepted =>
    .insertRecords gatewayId todo
      (if answer.isSome=true then accepted++[record.localId] else accepted)
  | selectCommands _ =>
    match answer.bind fun a => scanRows json a.1 a.2 with
    | some commands => .markCommands (commands.map CloudCommand.commandId) commands
    | none => .returned .error
  | markCommands (_::todo) commands => .markCommands todo commands
  | frame => frame

/-- What is read is the beginning of what was selected. -/
theorem scanRows_eq_some {json : Jsonb J} {rows : List (CommandRow J)} {fetch : Fetch}
    {commands : List CloudCommand} (h : scanRows json rows fetch=some commands) :
    ∃ n, commands=(rows.take n).map (cloudCommand json) := by
  cases fetch with
  | rows n =>
    obtain rfl := Option.some.inj h
    exact ⟨n,rfl⟩
  | scanError n =>
    simp only [scanRows,Option.ite_none_left_eq_some,Option.some.injEq] at h
    exact ⟨rows.length,by rw [List.take_length]; exact h.2.symm⟩

/-- The answer of a handler whose only write has succeeded. -/
def Request.acknowledgement : Request → Option Response
  | registerGateway _ _ => some (.registerGateway true "v1")
  | uploadTelemetry _ _ => none
  | checkCommands _ _ => none
  | reportCommandResult _ _ _ _ => some (.reportCommandResult true)
  | reportHealth _ _ => some (.reportHealth true)
  | reportOtaStatus _ _ _ _ _ => some (.reportOtaStatus true)

/-- The frames a request can be in. -/
inductive FrameOf : Request → Frame → Prop
  | start (req : Request) : FrameOf req req.handler
  | recordResult (gatewayId commandId status resultJson : String) :
    FrameOf (.reportCommandResult gatewayId commandId status resultJson)
      (.write (.recordResult status resultJson commandId gatewayId) (.reportCommandResult true))
  | insertHealthReport (gatewayId payloadJson : String) :
    FrameOf (.reportHealth gatewayId payloadJson)
      (.write (.insertHealthReport gatewayId payloadJson) (.reportHealth true))
  | insertOtaResult (gatewayId updateId targetVersion status detail : String) :
    FrameOf (.reportOtaStatus gatewayId updateId targetVersion status detail)
      (.write (.insertOtaResult gatewayId updateId targetVersion status detail)
        (.reportOtaStatus true))
  | insertRecords (gatewayId : String) (done todo : List TelemetryRecord) (accepted : List Int64) :
    FrameOf (.uploadTelemetry gatewayId (done++todo)) (.insertRecords gatewayId todo accepted)
  | selectCommands (gatewayId cursor : String) :
    FrameOf (.checkCommands gatewayId cursor) (.selectCommands gatewayId)
  | markCommands (gatewayId cursor : String) (todo : List String) (commands : List CloudCommand)
    (h : todo <:+ commands.map CloudCommand.commandId) :
    FrameOf (.checkCommands gatewayId cursor) (.markCommands todo commands)
  | returned (req : Request) (reply : Response)
    (h : reply=.error ∨ req.acknowledgement=some reply) : FrameOf req (.returned reply)

/-- A write that is answered leaves a returned frame. -/
theorem FrameOf.resume_write (json : Jsonb J) (answer : Option (List (CommandRow J)×Fetch))
    (req : Request) (st : Statement) (reply : Response) (h : req.acknowledgement=some reply) :
    FrameOf req ((Frame.write st reply).resume json answer) := by
  dsimp only [Frame.resume]
  split
  · exact .returned req reply (Or.inr h)
  · exact .returned req .error (Or.inl rfl)

/-- Resuming a frame of a request gives a frame of that request. -/
theorem FrameOf.resume {json : Jsonb J} {answer : Option (List (CommandRow J)×Fetch)}
    {req : Request} {f : Frame} (h : FrameOf req f) : FrameOf req (f.resume json answer) := by
  cases h with
  | start =>
    cases req with
    | registerGateway gatewayId softwareVersion => exact resume_write json answer _ _ _ rfl
    | uploadTelemetry gatewayId records => exact .insertRecords gatewayId [] records []
    | checkCommands gatewayId cursor => exact .selectCommands gatewayId cursor
    | reportCommandResult gatewayId commandId status resultJson =>
      exact .recordResult gatewayId commandId status resultJson
    | reportHealth gatewayId payloadJson => exact .insertHealthReport gatewayId payloadJson
    | reportOtaStatus gatewayId updateId targetVersion status detail =>
      exact .insertOtaResult gatewayId updateId targetVersion status detail
  | recordResult | insertHealthReport | insertOtaResult => exact resume_write json answer _ _ _ rfl
  | insertRecords gatewayId done todo accepted =>
    cases todo with
    | nil => exact .insertRecords gatewayId done [] accepted
    | cons record todo =>
      have he : done++record::todo=done++[record]++todo := by
        rw [List.append_assoc,List.singleton_append]
      rw [he]
      exact .insertRecords gatewayId (done++[record]) todo _
  | selectCommands gatewayId cursor =>
    dsimp only [Frame.resume]
    split
    · exact .markCommands gatewayId cursor _ _ (List.suffix_refl _)
    · exact .returned _ .error (Or.inl rfl)
  | markCommands gatewayId cursor todo commands hs =>
    cases todo with
    | nil => exact .markCommands gatewayId cursor [] commands hs
    | cons id todo =>
      exact .markCommands gatewayId cursor todo commands ((List.suffix_cons id todo).trans hs)
  | returned _ _ hr => exact .returned req _ hr

/-- Only the loop of CheckCommands marks commands delivered. -/
theorem FrameOf.of_markDelivered {req : Request} {f : Frame} {id : String} (h : FrameOf req f)
    (hn : f.next=.inl (.markDelivered id)) :
    ∃ gatewayId cursor todo commands, req=.checkCommands gatewayId cursor ∧
      f=.markCommands (id::todo) commands := by
  cases h with
  | start => cases req <;> cases hn
  | insertRecords gatewayId done todo accepted => cases todo <;> cases hn
  | markCommands gatewayId cursor todo commands hs =>
    cases todo with
    | nil => cases hn
    | cons id' todo =>
      cases hn
      exact ⟨gatewayId,cursor,todo,commands,rfl,rfl⟩
  | recordResult | insertHealthReport | insertOtaResult | selectCommands | returned => cases hn

/-- Only ReportCommandResult records a result, with the fields of its request. -/
theorem FrameOf.of_recordResult {req : Request} {f : Frame}
    {status resultJson commandId gatewayId : String} (h : FrameOf req f)
    (hn : f.next=.inl (.recordResult status resultJson commandId gatewayId)) :
    req=.reportCommandResult gatewayId commandId status resultJson ∧
      f=.write (.recordResult status resultJson commandId gatewayId) (.reportCommandResult true) := by
  cases h with
  | start => cases req <;> cases hn
  | insertRecords gatewayId done todo accepted => cases todo <;> cases hn
  | markCommands gatewayId cursor todo commands hs => cases todo <;> cases hn
  | recordResult =>
    cases hn
    exact ⟨rfl,rfl⟩
  | insertHealthReport | insertOtaResult | selectCommands | returned => cases hn

/-- Only the loop of UploadTelemetry inserts records of its request. -/
theorem FrameOf.of_insertTelemetry {req : Request} {f : Frame} {gatewayId : String}
    {record : TelemetryRecord} (h : FrameOf req f)
    (hn : f.next=.inl (.insertTelemetry gatewayId record)) :
    ∃ done todo accepted, req=.uploadTelemetry gatewayId (done++record::todo) ∧
      f=.insertRecords gatewayId (record::todo) accepted := by
  cases h with
  | start => cases req <;> cases hn
  | insertRecords gatewayId' done todo accepted =>
    cases todo with
    | nil => cases hn
    | cons record' todo =>
      cases hn
      exact ⟨done,todo,accepted,rfl,rfl⟩
  | markCommands gatewayId cursor todo commands hs => cases todo <;> cases hn
  | recordResult | insertHealthReport | insertOtaResult | selectCommands | returned => cases hn

/-- The commands a call has read, from its query to its return. -/
def Frame.commands : Frame → List CloudCommand
  | markCommands _ commands => commands
  | _ => []

/-- The ids a call still has to mark delivered. -/
def Frame.todo : Frame → List String
  | markCommands todo _ => todo
  | _ => []

/-- A call marks only commands it has read. -/
theorem FrameOf.todo_suffix {req : Request} {f : Frame} (h : FrameOf req f) :
    f.todo<:+f.commands.map CloudCommand.commandId := by
  cases h with
  | start => cases req <;> exact List.suffix_refl _
  | markCommands gatewayId cursor todo commands hs => exact hs
  | recordResult | insertHealthReport | insertOtaResult | insertRecords | selectCommands
  | returned => exact List.suffix_refl _

/-- The command a call is about to mark is one it has to mark. -/
theorem FrameOf.mem_todo {req : Request} {f : Frame} {id : String} (h : FrameOf req f)
    (hn : f.next=.inl (.markDelivered id)) : id∈f.todo := by
  obtain ⟨_,_,_,_,_,rfl⟩ := h.of_markDelivered hn
  exact List.mem_cons_self

/-- Only CheckCommands has commands to mark. -/
theorem FrameOf.of_todo {req : Request} {f : Frame} {id : String} (h : FrameOf req f)
    (hid : id∈f.todo) : ∃ gatewayId cursor,req=.checkCommands gatewayId cursor := by
  cases h with
  | start => cases req <;> exact absurd hid List.not_mem_nil
  | markCommands gatewayId cursor => exact ⟨gatewayId,cursor,rfl⟩
  | recordResult | insertHealthReport | insertOtaResult | insertRecords | selectCommands
  | returned => exact absurd hid List.not_mem_nil

/-- A call reads commands in one step, the answer to its query, and marks
them in order; no other step changes what it has read. -/
theorem FrameOf.commands_resume (json : Jsonb J) (answer : Option (List (CommandRow J)×Fetch))
    {req : Request} {f : Frame} (h : FrameOf req f) :
    ((f.resume json answer).commands=f.commands ∧ (f.resume json answer).todo<:+f.todo) ∨
    ∃ gatewayId cursor rows fetch n, req=.checkCommands gatewayId cursor ∧
      f=.selectCommands gatewayId ∧ answer=some (rows,fetch) ∧
      (f.resume json answer).commands=(rows.take n).map (cloudCommand json) ∧
      (f.resume json answer).todo=(f.resume json answer).commands.map CloudCommand.commandId := by
  cases h with
  | start =>
    refine Or.inl ?_
    cases req with
    | registerGateway =>
      dsimp only [Request.handler,registerGateway,Frame.resume]
      split <;> exact ⟨rfl,List.suffix_refl _⟩
    | _ => exact ⟨rfl,List.suffix_refl _⟩
  | recordResult | insertHealthReport | insertOtaResult =>
    dsimp only [Frame.resume]
    split <;> exact Or.inl ⟨rfl,List.suffix_refl _⟩
  | insertRecords gatewayId done todo accepted =>
    cases todo <;> exact Or.inl ⟨rfl,List.suffix_refl _⟩
  | selectCommands gatewayId cursor =>
    dsimp only [Frame.resume]
    split
    · rename_i commands hc
      obtain ⟨⟨rows,fetch⟩,rfl,hs⟩ := Option.bind_eq_some_iff.mp hc
      obtain ⟨n,hn⟩ := scanRows_eq_some hs
      exact Or.inr ⟨gatewayId,cursor,rows,fetch,n,rfl,rfl,rfl,hn,rfl⟩
    · exact Or.inl ⟨rfl,List.suffix_refl _⟩
  | markCommands gatewayId cursor todo commands hs =>
    cases todo with
    | nil => exact Or.inl ⟨rfl,List.suffix_refl _⟩
    | cons id todo => exact Or.inl ⟨rfl,List.suffix_cons id todo⟩
  | returned => exact Or.inl ⟨rfl,List.suffix_refl _⟩

/-- The records a request carries. -/
def Request.records : Request → List TelemetryRecord
  | .uploadTelemetry _ records => records
  | _ => []

/-- The local ids a call has accepted so far. -/
def Frame.acceptedLocalIds : Frame → List Int64
  | .insertRecords _ _ accepted => accepted
  | _ => []

/-- The accepted_local_ids of a response. -/
def Response.acceptedLocalIds : Response → List Int64
  | .uploadTelemetry acceptedLocalIds => acceptedLocalIds
  | _ => []

/-- The records a call still has to insert. -/
def Frame.remaining : Frame → List TelemetryRecord
  | .touch _ rest => rest.remaining
  | .insertRecords _ todo _ => todo
  | _ => []

/-- A call goes on to its next record, and accepts the id of the last one,
exactly when the INSERT of the record is answered. -/
theorem FrameOf.upload_resume (json : Jsonb J) (answer : Option (List (CommandRow J)×Fetch))
    {req : Request} {f : Frame} (h : FrameOf req f) :
    ((∀ gatewayId record,f.next≠.inl (.insertTelemetry gatewayId record)) ∧
      (f.resume json answer).acceptedLocalIds=f.acceptedLocalIds ∧
      (f.resume json answer).remaining=f.remaining) ∨
    ∃ gatewayId record todo accepted,f=.insertRecords gatewayId (record::todo) accepted ∧
      f.resume json answer=.insertRecords gatewayId todo
        (if answer.isSome=true then accepted++[record.localId] else accepted) := by
  cases h with
  | start =>
    cases req with
    | registerGateway =>
      dsimp only [Request.handler,registerGateway,Frame.resume]
      split <;> exact Or.inl ⟨nofun,rfl,rfl⟩
    | _ => exact Or.inl ⟨nofun,rfl,rfl⟩
  | recordResult | insertHealthReport | insertOtaResult =>
    dsimp only [Frame.resume]
    split <;> exact Or.inl ⟨nofun,rfl,rfl⟩
  | insertRecords gatewayId done todo accepted =>
    cases todo with
    | nil => exact Or.inl ⟨nofun,rfl,rfl⟩
    | cons record todo => exact Or.inr ⟨gatewayId,record,todo,accepted,rfl,rfl⟩
  | selectCommands =>
    dsimp only [Frame.resume]
    split <;> exact Or.inl ⟨nofun,rfl,rfl⟩
  | markCommands gatewayId cursor todo commands =>
    cases todo <;> exact Or.inl ⟨nofun,rfl,rfl⟩
  | returned => exact Or.inl ⟨nofun,rfl,rfl⟩

/-- Every record of a request is still to be inserted when its call starts. -/
theorem remaining_handler (req : Request) : req.handler.remaining=req.records := by
  cases req <;> rfl

/-- A call that is about to return has no record left. -/
theorem FrameOf.remaining_next {req : Request} {f : Frame} {response : Response}
    (h : FrameOf req f) (hn : f.next=.inr response) : f.remaining=[] := by
  cases h with
  | start => cases req <;> cases hn
  | insertRecords gatewayId done todo accepted =>
    cases todo with
    | nil => rfl
    | cons => cases hn
  | recordResult | insertHealthReport | insertOtaResult | selectCommands => cases hn
  | markCommands | returned => rfl

/-- A response accepts what its call has accepted. -/
theorem FrameOf.acceptedLocalIds_next {req : Request} {f : Frame} {response : Response}
    (h : FrameOf req f) (hn : f.next=.inr response) :
    response.acceptedLocalIds=f.acceptedLocalIds := by
  cases h with
  | start => cases req <;> cases hn
  | recordResult | insertHealthReport | insertOtaResult | selectCommands => cases hn
  | insertRecords gatewayId done todo accepted =>
    cases todo with
    | nil =>
      cases hn
      rfl
    | cons => cases hn
  | markCommands gatewayId cursor todo commands =>
    cases todo with
    | nil =>
      cases hn
      rfl
    | cons => cases hn
  | returned _ _ hr =>
    cases hn
    rcases hr with rfl|hr
    · rfl
    · cases req <;> cases hr <;> rfl

end Greenhouse.CloudHandlers
