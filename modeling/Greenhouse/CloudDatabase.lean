import Greenhouse.KeyedTable
import Greenhouse.OrderedPage
import Mathlib.Order.WithBot
import Mathlib.Data.Nat.Cast.WithTop

/-!
# The cloud database and its statements

Rows follow the migrated schema, without the serial ids and the devices table
that no statement reads. Text parameters, BIGINT parameters and JSON
parameters may be refused by the database; a refused or failed statement has
no effect. JSON values and their text form belong to the database system and
stay a parameter.
-/

namespace Greenhouse.CloudDatabase

open KeyedTable OrderedPage

/-- A TIMESTAMP, counted from the earliest one. -/
abbrev Timestamp := ℕ

/-- A telemetry record of an upload. -/
structure TelemetryRecord where
  /-- Local counter value of the gateway. -/
  localId : Int64
  /-- Device that measured. -/
  deviceId : String
  /-- Time of the measurement, in milliseconds. -/
  timestampMs : UInt64
  /-- Measurement as JSON text. -/
  payloadJson : String
  deriving DecidableEq

/-- A command as it is sent to a gateway. -/
structure CloudCommand where
  /-- Primary key of the command. -/
  commandId : String
  /-- Device the command is for. -/
  targetDeviceId : String
  /-- Command body as JSON text. -/
  payloadJson : String
  deriving DecidableEq

/-- The JSONB type of the database system. -/
structure Jsonb (J : Type) where
  /-- Value of an input text, none when the text is refused. -/
  parse : String → Option J
  /-- Text of a stored value. -/
  print : J → String

/-- A row of gateways. -/
structure GatewayRow where
  gatewayId : String
  softwareVersion : Option String
  lastSeen : Option Timestamp
  status : Option String
  createdAt : Option Timestamp

/-- A row of telemetry. -/
structure TelemetryRow (J : Type) where
  gatewayId : String
  deviceId : String
  localId : Int64
  timestampMs : Int64
  payload : J
  receivedAt : Option Timestamp

/-- A row of commands. -/
structure CommandRow (J : Type) where
  commandId : String
  gatewayId : String
  targetDeviceId : String
  payload : J
  status : String
  createdAt : Option Timestamp
  deliveredAt : Option Timestamp
  completedAt : Option Timestamp
  result : Option J

/-- A row of health_reports. -/
structure HealthRow (J : Type) where
  gatewayId : String
  payload : J
  receivedAt : Option Timestamp

/-- A row of ota_results. -/
structure OtaRow where
  gatewayId : String
  updateId : Option String
  targetVersion : Option String
  status : String
  detail : Option String
  receivedAt : Option Timestamp

/-- The key constraint of telemetry, UNIQUE(gateway_id, local_id). -/
def TelemetryRow.key {J : Type} (r : TelemetryRow J) : String×Int64 := (r.gatewayId,r.localId)

/-- The tables the service writes, with their key constraints. -/
structure Database (J : Type) where
  gateways : Table GatewayRow GatewayRow.gatewayId
  telemetry : Table (TelemetryRow J) TelemetryRow.key
  commands : Table (CommandRow J) CommandRow.commandId
  healthReports : List (HealthRow J)
  otaResults : List OtaRow

/-- JSON restricted to a few texts that are stored unchanged, to run examples. -/
def Jsonb.sample : Jsonb String := ⟨fun s => if s∈["{}","0","1"] then some s else none,id⟩

variable {J : Type}

/-- The freshly migrated database. -/
def Database.empty : Database J := ⟨Table.empty,Table.empty,Table.empty,[],[]⟩

/-- A TEXT parameter cannot carry a NUL character. -/
def textOk (s : String) : Bool := !s.toList.contains (Char.ofNat 0)

/-- A uint64 parameter for a BIGINT column; the upper half is out of range. -/
def bigint (n : UInt64) : Option Int64 :=
  if n.toNat<2^63 then some (Int64.ofNat n.toNat) else none

/-- ORDER BY in ascending order puts NULL after every value. -/
def nullsLast : Option Timestamp → WithTop ℕ
  | some t => t
  | none => ⊤

/-- How the loop over the selected rows ends. -/
inductive Fetch
  /-- At most the given number of rows is read, then Next answers false. -/
  | rows (n : ℕ)
  /-- Scanning the row with this number fails, if there is such a row. -/
  | scanError (n : ℕ)

/-- What the outside world decides about one statement. -/
structure Outcome where
  /-- The connection is lost or the call cancelled before the statement runs. -/
  fails : Bool
  /-- The value of now(). -/
  now : Timestamp
  /-- Order among selected commands created at the same time. -/
  rank : String → ℕ
  /-- How the loop over the selected rows ends. -/
  fetch : Fetch

/-- A statement that runs, with all selected rows read. -/
def Outcome.success : Outcome := ⟨false,0,fun _ => 0,.rows 20⟩

/-- A statement that fails. -/
def Outcome.failure : Outcome := ⟨true,0,fun _ => 0,.rows 20⟩

/-- The statements of the handlers, with their parameters. -/
inductive Statement
  /-- INSERT INTO gateways ... ON CONFLICT (gateway_id) DO UPDATE ... -/
  | upsertGateway (gatewayId softwareVersion : String)
  /-- UPDATE gateways SET last_seen = now() WHERE gateway_id = $1 -/
  | touchGateway (gatewayId : String)
  /-- INSERT INTO telemetry ... ON CONFLICT (gateway_id, local_id) DO NOTHING -/
  | insertTelemetry (gatewayId : String) (record : TelemetryRecord)
  /-- SELECT ... WHERE gateway_id = $1 AND status = 'pending' ... LIMIT 20 -/
  | selectPending (gatewayId : String)
  /-- UPDATE commands SET status = 'delivered', ... WHERE command_id = $1 -/
  | markDelivered (commandId : String)
  /-- UPDATE commands SET status = $1, ... WHERE command_id = $3 AND gateway_id = $4 -/
  | recordResult (status resultJson commandId gatewayId : String)
  /-- INSERT INTO health_reports (gateway_id, payload) VALUES ($1, $2) -/
  | insertHealthReport (gatewayId payloadJson : String)
  /-- INSERT INTO ota_results ... VALUES ($1, $2, $3, $4, $5) -/
  | insertOtaResult (gatewayId updateId targetVersion status detail : String)
  deriving DecidableEq

/-- The telemetry row a record becomes, none when a parameter is refused. -/
def telemetryRow (json : Jsonb J) (now : Timestamp) (gatewayId : String)
    (record : TelemetryRecord) : Option (TelemetryRow J) :=
  if (textOk gatewayId && textOk record.deviceId)=true then
    match bigint record.timestampMs,json.parse record.payloadJson with
    | some timestampMs,some payload =>
      some ⟨gatewayId,record.deviceId,record.localId,timestampMs,payload,some now⟩
    | _,_ => none
  else none

/-- The row of a record that is not refused. -/
theorem telemetryRow_eq_some {json : Jsonb J} {now : Timestamp} {gatewayId : String}
    {record : TelemetryRecord} {row : TelemetryRow J} :
    telemetryRow json now gatewayId record=some row ↔
      (textOk gatewayId && textOk record.deviceId)=true ∧
        ∃ timestampMs payload,bigint record.timestampMs=some timestampMs ∧
          json.parse record.payloadJson=some payload ∧
          row=⟨gatewayId,record.deviceId,record.localId,timestampMs,payload,some now⟩ := by
  unfold telemetryRow
  cases bigint record.timestampMs with
  | none => simp only [ite_self,reduceCtorEq,false_and,exists_false,and_false]
  | some timestampMs =>
    cases json.parse record.payloadJson with
    | none => simp only [ite_self,reduceCtorEq,false_and,and_false,exists_false]
    | some payload =>
      simp only [Option.ite_none_right_eq_some,Option.some.injEq,exists_and_left,exists_eq_left',
        @eq_comm _ row]

/-- The table after a gateway has registered, for the first time or again. -/
def upsertGateway (now : Timestamp) (gatewayId softwareVersion : String)
    (t : Table GatewayRow GatewayRow.gatewayId) : Table GatewayRow GatewayRow.gatewayId :=
  t.insertOrUpdate ⟨gatewayId,some softwareVersion,some now,some "online",some now⟩
    (fun r => {r with
      softwareVersion := some softwareVersion,lastSeen := some now,status := some "online"})
    fun _ => rfl

/-- The table after the last_seen update of one gateway. -/
def touchGateway (now : Timestamp) (gatewayId : String)
    (t : Table GatewayRow GatewayRow.gatewayId) : Table GatewayRow GatewayRow.gatewayId :=
  t.updateWhere (fun r => decide (r.gatewayId=gatewayId))
    (fun r => {r with lastSeen := some now}) fun _ => rfl

/-- The pending commands of a gateway, in stored order. -/
def pendingRows (gatewayId : String) (db : Database J) : List (CommandRow J) :=
  db.commands.slice fun r => decide (r.gatewayId=gatewayId) && decide (r.status="pending")

/-- The page of pending commands that one query returns. -/
def selectPending (o : Outcome) (gatewayId : String) (db : Database J) : List (CommandRow J) :=
  page (fun r => nullsLast r.createdAt) (fun r => o.rank r.commandId) 20 (pendingRows gatewayId db)

/-- The table after the update that marks one command delivered. -/
def markDelivered (now : Timestamp) (commandId : String)
    (t : Table (CommandRow J) CommandRow.commandId) : Table (CommandRow J) CommandRow.commandId :=
  t.updateWhere (fun r => decide (r.commandId=commandId))
    (fun r => {r with status := "delivered",deliveredAt := some now}) fun _ => rfl

/-- The table after the update that records one result. -/
def recordResult (now : Timestamp) (status : String) (result : J) (commandId gatewayId : String)
    (t : Table (CommandRow J) CommandRow.commandId) : Table (CommandRow J) CommandRow.commandId :=
  t.updateWhere (fun r => decide (r.commandId=commandId) && decide (r.gatewayId=gatewayId))
    (fun r => {r with status := status,completedAt := some now,result := some result}) fun _ => rfl

/-- Execute one statement: the new database and the selected rows, or none
when the statement fails and has no effect. -/
def Statement.exec (json : Jsonb J) (o : Outcome) (db : Database J) :
    Statement → Option (Database J×List (CommandRow J))
  | upsertGateway gatewayId softwareVersion =>
    if (!o.fails && textOk gatewayId && textOk softwareVersion)=true then
      some ({db with gateways :=
        CloudDatabase.upsertGateway o.now gatewayId softwareVersion db.gateways},[])
    else none
  | touchGateway gatewayId =>
    if (!o.fails && textOk gatewayId)=true then
      some ({db with gateways := CloudDatabase.touchGateway o.now gatewayId db.gateways},[])
    else none
  | insertTelemetry gatewayId record =>
    if o.fails=true then none
    else (telemetryRow json o.now gatewayId record).map fun row =>
      ({db with telemetry := db.telemetry.insertIgnore row},[])
  | selectPending gatewayId =>
    if (!o.fails && textOk gatewayId)=true then
      some (db,CloudDatabase.selectPending o gatewayId db)
    else none
  | markDelivered commandId =>
    if (!o.fails && textOk commandId)=true then
      some ({db with commands := CloudDatabase.markDelivered o.now commandId db.commands},[])
    else none
  | recordResult status resultJson commandId gatewayId =>
    if (!o.fails && textOk status && textOk commandId && textOk gatewayId)=true then
      (json.parse resultJson).map fun result =>
        ({db with commands :=
          CloudDatabase.recordResult o.now status result commandId gatewayId db.commands},[])
    else none
  | insertHealthReport gatewayId payloadJson =>
    if (!o.fails && textOk gatewayId)=true then
      (json.parse payloadJson).map fun payload =>
        ({db with healthReports := db.healthReports++[⟨gatewayId,payload,some o.now⟩]},[])
    else none
  | insertOtaResult gatewayId updateId targetVersion status detail =>
    if (!o.fails && textOk gatewayId && textOk updateId && textOk targetVersion &&
        textOk status && textOk detail)=true then
      some ({db with otaResults := db.otaResults++
        [⟨gatewayId,some updateId,some targetVersion,status,some detail,some o.now⟩]},[])
    else none

section Commands

variable {now : Timestamp} {id gatewayId status : String} {result : J}
  {t : Table (CommandRow J) CommandRow.commandId} {row : CommandRow J}

/-- Marking keeps every column but the status and the delivery time. -/
theorem mem_markDelivered : row∈(markDelivered now id t).rows ↔ ∃ old∈t.rows,
    (if old.commandId=id then {old with status := "delivered",deliveredAt := some now}
      else old)=row := by
  simp only [markDelivered,Table.mem_updateWhere,decide_eq_true_eq]

/-- Recording changes the status, the result and the completion time of at
most the one command with this id and this gateway. -/
theorem mem_recordResult : row∈(recordResult now status result id gatewayId t).rows ↔ ∃ old∈t.rows,
    (if old.commandId=id ∧ old.gatewayId=gatewayId then
      {old with status := status,completedAt := some now,result := some result}
      else old)=row := by
  simp only [recordResult,Table.mem_updateWhere,Bool.and_eq_true,decide_eq_true_eq]

/-- The columns of a command that no handler changes. -/
def CommandRow.origin (r : CommandRow J) : String×String×Option Timestamp :=
  (r.commandId,r.gatewayId,r.createdAt)

theorem origin_markDelivered :
    (markDelivered now id t).rows.map CommandRow.origin=t.rows.map CommandRow.origin :=
  Table.map_updateWhere fun _ => rfl

theorem origin_recordResult :
    (recordResult now status result id gatewayId t).rows.map CommandRow.origin=
      t.rows.map CommandRow.origin :=
  Table.map_updateWhere fun _ => rfl

theorem commandId_markDelivered :
    (markDelivered now id t).rows.map CommandRow.commandId=t.rows.map CommandRow.commandId :=
  Table.map_updateWhere fun _ => rfl

theorem commandId_recordResult :
    (recordResult now status result id gatewayId t).rows.map CommandRow.commandId=
      t.rows.map CommandRow.commandId :=
  Table.map_updateWhere fun _ => rfl

theorem mem_pendingRows {db : Database J} :
    row∈pendingRows gatewayId db ↔
      row∈db.commands.rows ∧ row.gatewayId=gatewayId ∧ row.status="pending" := by
  simp only [pendingRows,Table.mem_slice,Bool.and_eq_true,decide_eq_true_eq]

/-- Selected commands are pending commands of the gateway. -/
theorem mem_selectPending {o : Outcome} {db : Database J} (h : row∈selectPending o gatewayId db) :
    row∈db.commands.rows ∧ row.gatewayId=gatewayId ∧ row.status="pending" :=
  mem_pendingRows.mp (mem_of_mem_page h)

end Commands

section Effects

variable {json : Jsonb J} {o : Outcome} {db db' : Database J} {rows : List (CommandRow J)}
  {st : Statement}

/-- A statement that fails for an outside reason never takes effect. -/
theorem exec_fails (h : o.fails=true) : st.exec json o db=none := by
  cases st <;> simp only [Statement.exec,h,Bool.not_true,Bool.false_and,Bool.false_eq_true,
    if_false,if_true]

/-- What a statement does to the commands: one command is marked delivered,
one result is recorded, or nothing changes. -/
theorem exec_commands (h : st.exec json o db=some (db',rows)) :
    (∃ id, st=.markDelivered id ∧ db'.commands=markDelivered o.now id db.commands) ∨
    (∃ status resultJson id gatewayId result, st=.recordResult status resultJson id gatewayId ∧
      json.parse resultJson=some result ∧
      db'.commands=recordResult o.now status result id gatewayId db.commands) ∨
    (db'.commands=db.commands ∧ (∀ id, st≠.markDelivered id) ∧
      ∀ status resultJson id gatewayId, st≠.recordResult status resultJson id gatewayId) := by
  cases st with
  | markDelivered id =>
    simp only [Statement.exec,Option.ite_none_right_eq_some,Option.some.injEq,Prod.mk.injEq] at h
    obtain ⟨_,rfl,_⟩ := h
    exact Or.inl ⟨id,rfl,rfl⟩
  | recordResult status resultJson id gatewayId =>
    simp only [Statement.exec,Option.ite_none_right_eq_some,Option.map_eq_some_iff,
      Prod.mk.injEq] at h
    obtain ⟨_,result,hr,rfl,_⟩ := h
    exact Or.inr (Or.inl ⟨status,resultJson,id,gatewayId,result,rfl,hr,rfl⟩)
  | insertTelemetry gatewayId record =>
    simp only [Statement.exec,Option.ite_none_left_eq_some,Option.map_eq_some_iff,
      Prod.mk.injEq] at h
    obtain ⟨_,_,_,rfl,_⟩ := h
    exact Or.inr (Or.inr ⟨rfl,nofun,nofun⟩)
  | insertHealthReport gatewayId payloadJson =>
    simp only [Statement.exec,Option.ite_none_right_eq_some,Option.map_eq_some_iff,
      Prod.mk.injEq] at h
    obtain ⟨_,_,_,rfl,_⟩ := h
    exact Or.inr (Or.inr ⟨rfl,nofun,nofun⟩)
  | upsertGateway _ _ | touchGateway _ | selectPending _ | insertOtaResult _ _ _ _ _ =>
    simp only [Statement.exec,Option.ite_none_right_eq_some,Option.some.injEq,Prod.mk.injEq] at h
    obtain ⟨_,rfl,_⟩ := h
    exact Or.inr (Or.inr ⟨rfl,nofun,nofun⟩)

/-- No statement changes the id, gateway or creation time of a command. -/
theorem exec_origin (h : st.exec json o db=some (db',rows)) :
    db'.commands.rows.map CommandRow.origin=db.commands.rows.map CommandRow.origin := by
  rcases exec_commands h with ⟨_,_,hc⟩|⟨_,_,_,_,_,_,_,hc⟩|⟨hc,_⟩
  · rw [hc,origin_markDelivered]
  · rw [hc,origin_recordResult]
  · rw [hc]

/-- What a statement does to the telemetry: one row is offered, or nothing changes. -/
theorem exec_telemetry (h : st.exec json o db=some (db',rows)) :
    (∃ gatewayId record row, st=.insertTelemetry gatewayId record ∧
      telemetryRow json o.now gatewayId record=some row ∧
      db'.telemetry=db.telemetry.insertIgnore row) ∨
    (db'.telemetry=db.telemetry ∧ ∀ gatewayId record, st≠.insertTelemetry gatewayId record) := by
  cases st with
  | insertTelemetry gatewayId record =>
    simp only [Statement.exec,Option.ite_none_left_eq_some,Option.map_eq_some_iff,
      Prod.mk.injEq] at h
    obtain ⟨_,row,hr,rfl,_⟩ := h
    exact Or.inl ⟨gatewayId,record,row,rfl,hr,rfl⟩
  | recordResult _ _ _ _ | insertHealthReport _ _ =>
    simp only [Statement.exec,Option.ite_none_right_eq_some,Option.map_eq_some_iff,
      Prod.mk.injEq] at h
    obtain ⟨_,_,_,rfl,_⟩ := h
    exact Or.inr ⟨rfl,nofun⟩
  | upsertGateway _ _ | touchGateway _ | selectPending _ | markDelivered _
  | insertOtaResult _ _ _ _ _ =>
    simp only [Statement.exec,Option.ite_none_right_eq_some,Option.some.injEq,Prod.mk.injEq] at h
    obtain ⟨_,rfl,_⟩ := h
    exact Or.inr ⟨rfl,nofun⟩

end Effects

end Greenhouse.CloudDatabase
