import Greenhouse.CloudService
import Greenhouse.EventLog

/-!
# The database as a function of its history

The history of a run is what has been executed, in the order of execution: the
statements with their times, and the insertions of commands from outside. A
gateway has a row from its first registration on, and calls of a gateway that
has never registered leave no trace in it. A command holds what its last mark
and the last result of its own gateway have written since its insertion.
Telemetry belongs to the first writer of its key, and reports pile up.
-/

namespace Greenhouse.CloudHistory

open KeyedTable CloudDatabase CloudHandlers CloudService TemporalRuns EventLog

variable {J : Type}

/-- A change of the database. -/
inductive Change (J : Type)
  /-- A statement that has been executed, with the value of now(). -/
  | ran (st : Statement) (now : Timestamp)
  /-- A command has been inserted from outside. -/
  | inserted (c : NewCommand J)

/-- The change that a step makes, if it makes one. -/
def changes (json : Jsonb J) (s : Service J) : Event J → Service J → List (Change J)
  | .statement i o,_ =>
    match s.calls i with
    | none => []
    | some c =>
      match c.frame.next with
      | .inr _ => []
      | .inl st => if (st.exec json o s.db).isSome=true then [.ran st o.now] else []
  | .insertCommand c,_ => [.inserted c]
  | _,_ => []

/-- All changes of a run. -/
def history (json : Jsonb J) : Service J → List (Event J) → List (Change J) :=
  observe (step json) (changes json)

/-- The version of a registration of the gateway. -/
def registration (g : String) : Change J → Option String
  | .ran (.upsertGateway gatewayId softwareVersion) _ =>
    if gatewayId=g then some softwareVersion else none
  | _ => none

/-- The time of a registration of the gateway, or of an update of its last_seen. -/
def contact (g : String) : Change J → Option Timestamp
  | .ran (.upsertGateway gatewayId _) now => if gatewayId=g then some now else none
  | .ran (.touchGateway gatewayId) now => if gatewayId=g then some now else none
  | _ => none

/-- The row that a registration creates. -/
def registered (g : String) (x : Change J) : Option GatewayRow :=
  match registration g x,contact g x with
  | some softwareVersion,some now =>
    some ⟨g,some softwareVersion,some now,some "online",some now⟩
  | _,_ => none

/-- The row of a gateway after more changes. -/
def gatewaySince (r : GatewayRow) (log : List (Change J)) : GatewayRow :=
  {r with
    softwareVersion := lastWrite (fun x => (registration r.gatewayId x).map some) r.softwareVersion log
    lastSeen := lastWrite (fun x => (contact r.gatewayId x).map some) r.lastSeen log
    status := lastWrite (fun x => (registration r.gatewayId x).map fun _ => some "online") r.status log}

/-- The row of a gateway, from its first registration on. -/
def gatewayRow (g : String) (old : Option GatewayRow) (log : List (Change J)) : Option GatewayRow :=
  (lifetime (registered g) old log).map fun entry => gatewaySince entry.1 entry.2

/-- The time at which the command is marked delivered. -/
def marked (id : String) : Change J → Option Timestamp
  | .ran (.markDelivered commandId) now => if commandId=id then some now else none
  | _ => none

/-- The status, the result and the time of a result that the gateway of the
command reports. -/
def resulted (json : Jsonb J) (id g : String) : Change J → Option (String×J×Timestamp)
  | .ran (.recordResult status resultJson commandId gatewayId) now =>
    if commandId=id ∧ gatewayId=g then
      (json.parse resultJson).map fun result => (status,result,now)
    else none
  | _ => none

/-- The row of a command that is inserted. -/
def insertedRow (id : String) : Change J → Option (CommandRow J)
  | .inserted c => if c.commandId=id then some c.row else none
  | _ => none

/-- The row of a command after more changes. -/
def commandSince (json : Jsonb J) (r : CommandRow J) (log : List (Change J)) : CommandRow J :=
  {r with
    status := lastWrite (fun x => ((marked r.commandId x).map fun _ => "delivered").or
      ((resulted json r.commandId r.gatewayId x).map fun w => w.1)) r.status log
    deliveredAt := lastWrite (fun x => (marked r.commandId x).map some) r.deliveredAt log
    completedAt := lastWrite (fun x => (resulted json r.commandId r.gatewayId x).map
      fun w => some w.2.2) r.completedAt log
    result := lastWrite (fun x => (resulted json r.commandId r.gatewayId x).map
      fun w => some w.2.1) r.result log}

/-- The row of a command, from its insertion on. -/
def commandRow (json : Jsonb J) (id : String) (old : Option (CommandRow J)) (log : List (Change J)) :
    Option (CommandRow J) :=
  (lifetime (insertedRow id) old log).map fun entry => commandSince json entry.1 entry.2

/-- The row of an INSERT of telemetry with the key. -/
def offeredRow (json : Jsonb J) (k : String×Int64) : Change J → Option (TelemetryRow J)
  | .ran (.insertTelemetry gatewayId record) now =>
    (telemetryRow json now gatewayId record).bind fun row => if row.key=k then some row else none
  | _ => none

/-- The row of an INSERT of a health report. -/
def healthRow (json : Jsonb J) : Change J → Option (HealthRow J)
  | .ran (.insertHealthReport gatewayId payloadJson) now =>
    (json.parse payloadJson).map fun payload => ⟨gatewayId,payload,some now⟩
  | _ => none

/-- The row of an INSERT of an update result. -/
def otaRow : Change J → Option OtaRow
  | .ran (.insertOtaResult gatewayId updateId targetVersion status detail) now =>
    some ⟨gatewayId,some updateId,some targetVersion,status,some detail,some now⟩
  | _ => none

section Steps

variable {json : Jsonb J} {s t : Service J} {e : Event J}

/-- The change of an executed statement. -/
theorem changes_executes {i : ℕ} {o : Outcome} {c : Call} {st : Statement} {db : Database J}
    {rows : List (CommandRow J)} (call : s.calls i=some c) (next : c.frame.next=.inl st)
    (exec : st.exec json o s.db=some (db,rows)) :
    changes json s (.statement i o) t=[.ran st o.now] := by
  simp only [changes,call,next,exec,Option.isSome_some,if_true]

/-- A step changes nothing, executes one statement or inserts one command. -/
theorem changes_step (hs : step json s e=some t) :
    (changes json s e t=[] ∧ t.db=s.db) ∨
    (∃ st o rows,changes json s e t=[.ran st o.now] ∧ st.exec json o s.db=some (t.db,rows)) ∨
    ∃ c,changes json s e t=[.inserted c] ∧
      t.db={s.db with commands := s.db.commands.insertIgnore c.row} := by
  cases step_transition hs with
  | fails call next exec =>
    refine Or.inl ⟨?_,rfl⟩
    simp only [changes,call,next,exec,Option.isSome_none,Bool.false_eq_true,if_false]
  | executes call next exec =>
    exact Or.inr (Or.inl ⟨_,_,_,changes_executes call next exec,exec⟩)
  | insertCommand fresh => exact Or.inr (Or.inr ⟨_,rfl,rfl⟩)
  | request | reply | receive | abort => exact Or.inl ⟨rfl,rfl⟩

/-- A view of the database that each statement and each insertion records is
recorded by each step. -/
theorem view_step {A : Type} (view : Database J → Option A) {create : Change J → Option A}
    {apply : A → Change J → A}
    (hexec : ∀ st o db rows,st.exec json o s.db=some (db,rows) →
      view db=record create apply (view s.db) (.ran st o.now))
    (hinsert : ∀ c : NewCommand J,
      view {s.db with commands := s.db.commands.insertIgnore c.row}=
        record create apply (view s.db) (.inserted c))
    (hs : step json s e=some t) :
    view t.db=(changes json s e t).foldl (record create apply) (view s.db) := by
  rcases changes_step hs with ⟨hnone,hdb⟩|⟨st,o,rows,hran,hexecuted⟩|⟨c,hinserted,hdb⟩
  · rw [hnone,hdb]
    rfl
  · rw [hran]
    exact hexec st o t.db rows hexecuted
  · rw [hinserted,hdb]
    exact hinsert c

end Steps

section Gateways

variable {json : Jsonb J} {o : Outcome} {db db' : Database J} {rows : List (CommandRow J)}
  {st : Statement} {g : String}

/-- A change of another gateway does not concern the row. -/
theorem record_gateway_of_none {x : Change J} (hr : registration g x=none) (hc : contact g x=none)
    (t : Table GatewayRow GatewayRow.gatewayId) :
    record (registered g) (fun r x => gatewaySince r [x]) (t.lookup g) x=t.lookup g := by
  cases h : t.lookup g with
  | none =>
    dsimp only [record,Option.elim_none,registered]
    rw [hr]
  | some r =>
    obtain rfl : r.gatewayId=g := (Table.lookup_eq_some.mp h).2
    dsimp only [record,Option.elim_some,gatewaySince]
    rw [lastWrite_singleton,lastWrite_singleton,lastWrite_singleton,hr,hc]
    rfl

/-- A statement is recorded in the row of each gateway. -/
theorem exec_gateways (h : st.exec json o db=some (db',rows)) :
    db'.gateways.lookup g=record (registered g) (fun r x => gatewaySince r [x])
      (db.gateways.lookup g) (.ran st o.now : Change J) := by
  cases st with
  | upsertGateway gatewayId softwareVersion =>
    simp only [Statement.exec,Option.ite_none_right_eq_some,Option.some.injEq,Prod.mk.injEq] at h
    obtain ⟨_,rfl,_⟩ := h
    dsimp only
    rw [CloudDatabase.upsertGateway,Table.lookup_insertOrUpdate]
    by_cases hg : gatewayId=g
    · subst hg
      rw [if_pos rfl]
      cases hl : db.gateways.lookup gatewayId with
      | none =>
        simp only [record,Option.elim_none,registered,registration,contact,if_true]
      | some r =>
        have hr : r.gatewayId=gatewayId := (Table.lookup_eq_some.mp hl).2
        simp only [record,Option.elim_some,gatewaySince,lastWrite_singleton,registration,contact,hr,
          if_true,Option.map_some,Option.getD_some]
    · rw [if_neg hg,record_gateway_of_none (x:=.ran (.upsertGateway gatewayId softwareVersion) o.now)
        (if_neg hg) (if_neg hg)]
  | touchGateway gatewayId =>
    simp only [Statement.exec,Option.ite_none_right_eq_some,Option.some.injEq,Prod.mk.injEq] at h
    obtain ⟨_,rfl,_⟩ := h
    dsimp only
    rw [CloudDatabase.touchGateway,Table.lookup_updateWhere]
    by_cases hg : gatewayId=g
    · subst hg
      cases hl : db.gateways.lookup gatewayId with
      | none => rfl
      | some r =>
        have hr : r.gatewayId=gatewayId := (Table.lookup_eq_some.mp hl).2
        simp only [record,Option.elim_some,gatewaySince,lastWrite_singleton,registration,contact,hr,
          if_true,Option.map_some,Option.map_none,Option.getD_some,Option.getD_none,decide_true]
    · rw [record_gateway_of_none (x:=.ran (.touchGateway gatewayId) o.now) rfl (if_neg hg)]
      cases hl : db.gateways.lookup g with
      | none => rfl
      | some r =>
        have hr : r.gatewayId≠gatewayId := fun he =>
          hg (he.symm.trans (Table.lookup_eq_some.mp hl).2)
        rw [Option.map_some,if_neg (ne_true_of_eq_false (decide_eq_false hr))]
  | insertTelemetry gatewayId record =>
    simp only [Statement.exec,Option.ite_none_left_eq_some,Option.map_eq_some_iff,
      Prod.mk.injEq] at h
    obtain ⟨_,_,_,rfl,_⟩ := h
    exact (record_gateway_of_none rfl rfl _).symm
  | recordResult | insertHealthReport =>
    simp only [Statement.exec,Option.ite_none_right_eq_some,Option.map_eq_some_iff,
      Prod.mk.injEq] at h
    obtain ⟨_,_,_,rfl,_⟩ := h
    exact (record_gateway_of_none rfl rfl _).symm
  | selectPending | markDelivered | insertOtaResult =>
    simp only [Statement.exec,Option.ite_none_right_eq_some,Option.some.injEq,Prod.mk.injEq] at h
    obtain ⟨_,rfl,_⟩ := h
    exact (record_gateway_of_none rfl rfl _).symm

/-- In every state of every run, the row of a gateway is what the history of
registrations and contacts makes of it. -/
theorem gateways_of_history (json : Jsonb J) (db : Database J) (es : List (Event J)) (t : Service J)
    (g : String) (h : run (step json) (Service.start db) es=some t) :
    t.db.gateways.lookup g=
      gatewayRow g (db.gateways.lookup g) (history json (Service.start db) es) := by
  refine lifetime_run (fun s : Service J => s.db.gateways.lookup g)
    (fun r x => gatewaySince r [x]) gatewaySince ?_ ?_ ?_ h
  · intro r
    rfl
  · intro r log x
    simp only [gatewaySince,lastWrite_concat,lastWrite_singleton]
  · intro s e t hs
    refine view_step (fun db => db.gateways.lookup g) (fun st o db rows hx => exec_gateways hx)
      (fun c => ?_) hs
    exact (record_gateway_of_none rfl rfl _).symm

/-- A gateway that is contacted, registers, uploads and registers again. -/
def gatewayRun : List (Event String) :=
  [.request 0 (.reportHealth "gw" "{}"),.statement 0 ⟨false,1,fun _ => 0,.rows 0⟩,
    .request 1 (.registerGateway "gw" "1.0"),.statement 1 ⟨false,2,fun _ => 0,.rows 0⟩,
    .request 2 (.registerGateway "gw" "1.1"),.statement 2 ⟨false,3,fun _ => 0,.rows 0⟩,
    .request 3 (.uploadTelemetry "gw" []),.statement 3 ⟨false,4,fun _ => 0,.rows 0⟩]

/-- Its row has the time of the first registration, the version of the last one
and the time of the last contact. -/
theorem gateways_of_history_gatewayRun :
    ∃ t,run (step .sample) (Service.start Database.empty) gatewayRun=some t ∧
      t.db.gateways.lookup "gw"=some ⟨"gw",some "1.1",some 4,some "online",some 2⟩ :=
  ⟨_,rfl,gateways_of_history .sample Database.empty gatewayRun _ "gw" rfl⟩

end Gateways

section Commands

variable {json : Jsonb J} {o : Outcome} {db db' : Database J} {rows : List (CommandRow J)}
  {st : Statement} {id : String}

/-- A change that neither marks the command nor reports for it, and inserts
none. -/
theorem record_command_of_none {x : Change J} (hi : insertedRow id x=none) (hm : marked id x=none)
    (hr : ∀ g,resulted json id g x=none) (t : Table (CommandRow J) CommandRow.commandId) :
    record (insertedRow id) (fun r x => commandSince json r [x]) (t.lookup id) x=t.lookup id := by
  cases h : t.lookup id with
  | none => exact hi
  | some r =>
    obtain rfl : r.commandId=id := (Table.lookup_eq_some.mp h).2
    dsimp only [record,Option.elim_some,commandSince]
    rw [lastWrite_singleton,lastWrite_singleton,lastWrite_singleton,lastWrite_singleton,hm,hr]
    rfl

/-- A mark is recorded in the row of its command. -/
theorem lookup_markDelivered (now : Timestamp) (commandId : String)
    (t : Table (CommandRow J) CommandRow.commandId) :
    (markDelivered now commandId t).lookup id=record (insertedRow id)
      (fun r x => commandSince json r [x]) (t.lookup id) (.ran (.markDelivered commandId) now) := by
  rw [markDelivered,Table.lookup_updateWhere]
  cases hl : t.lookup id with
  | none => rfl
  | some r =>
    obtain rfl : r.commandId=id := (Table.lookup_eq_some.mp hl).2
    simp only [Option.map_some,record,Option.elim_some,commandSince,lastWrite_singleton,marked,
      resulted,decide_eq_true_eq]
    by_cases hid : commandId=r.commandId
    · rw [if_pos hid.symm,if_pos hid]
      rfl
    · rw [if_neg (Ne.symm hid),if_neg hid]
      rfl

/-- A result is recorded in the row of its command, when that belongs to the
gateway. -/
theorem lookup_recordResult (now : Timestamp) {status resultJson commandId gatewayId : String}
    {result : J} (hp : json.parse resultJson=some result)
    (t : Table (CommandRow J) CommandRow.commandId) :
    (recordResult now status result commandId gatewayId t).lookup id=record (insertedRow id)
      (fun r x => commandSince json r [x]) (t.lookup id)
      (.ran (.recordResult status resultJson commandId gatewayId) now) := by
  rw [recordResult,Table.lookup_updateWhere]
  cases hl : t.lookup id with
  | none => rfl
  | some r =>
    obtain rfl : r.commandId=id := (Table.lookup_eq_some.mp hl).2
    simp only [Option.map_some,record,Option.elim_some,commandSince,lastWrite_singleton,marked,
      resulted,hp,Bool.and_eq_true,decide_eq_true_eq]
    by_cases hid : commandId=r.commandId ∧ gatewayId=r.gatewayId
    · rw [if_pos ⟨hid.1.symm,hid.2.symm⟩,if_pos hid]
      rfl
    · rw [if_neg fun he => hid ⟨he.1.symm,he.2.symm⟩,if_neg hid]
      rfl

/-- A statement is recorded in the row of each command. -/
theorem lookup_exec_commands (h : st.exec json o db=some (db',rows)) :
    db'.commands.lookup id=record (insertedRow id) (fun r x => commandSince json r [x])
      (db.commands.lookup id) (.ran st o.now) := by
  rcases exec_commands h with ⟨_,rfl,hc⟩|⟨_,_,_,_,_,rfl,hp,hc⟩|⟨hc,hm,hr⟩
  · rw [hc]
    exact lookup_markDelivered _ _ _
  · rw [hc]
    exact lookup_recordResult _ hp _
  · rw [hc]
    refine (record_command_of_none rfl ?_ (fun g => ?_) _).symm
    · cases st with
      | markDelivered commandId => exact absurd rfl (hm commandId)
      | _ => rfl
    · cases st with
      | recordResult status resultJson commandId gatewayId => exact absurd rfl (hr _ _ _ _)
      | _ => rfl

/-- In every state of every run, the row of a command is the inserted one with
what the marks and the results of its own gateway have written since. -/
theorem commands_of_history (json : Jsonb J) (db : Database J) (es : List (Event J)) (t : Service J)
    (id : String) (h : run (step json) (Service.start db) es=some t) :
    t.db.commands.lookup id=
      commandRow json id (db.commands.lookup id) (history json (Service.start db) es) := by
  refine lifetime_run (fun s : Service J => s.db.commands.lookup id)
    (fun r x => commandSince json r [x]) (commandSince json) ?_ ?_ ?_ h
  · intro r
    rfl
  · intro r log x
    simp only [commandSince,lastWrite_concat,lastWrite_singleton]
  · intro s e t hs
    refine view_step (fun db => db.commands.lookup id)
      (fun st o db rows hx => lookup_exec_commands hx) (fun c => ?_) hs
    dsimp only
    rw [Table.lookup_insertIgnore]
    cases s.db.commands.lookup id with
    | none => rfl
    | some r => rfl

/-- A command that is inserted behind a report for it, and delivered and
reported afterwards. -/
def commandRun : List (Event String) :=
  [.request 0 (.reportCommandResult "gw" "c" "done" "0"),.statement 0 .success,.statement 0 .success,
    .insertCommand ⟨"c","gw","dev","{}",some 1⟩,
    .request 1 (.checkCommands "gw" ""),.statement 1 .success,.statement 1 .success,
    .statement 1 ⟨false,2,fun _ => 0,.rows 0⟩,
    .request 2 (.reportCommandResult "gw" "c" "failed" "1"),.statement 2 .success,
    .statement 2 ⟨false,3,fun _ => 0,.rows 0⟩]

/-- The command has been delivered once and has the second result. -/
theorem commands_of_history_commandRun :
    ∃ t,run (step .sample) (Service.start Database.empty) commandRun=some t ∧
      t.db.commands.lookup "c"=
        some ⟨"c","gw","dev","{}","failed",some 1,some 2,some 3,some "1"⟩ :=
  ⟨_,rfl,commands_of_history .sample Database.empty commandRun _ "c" rfl⟩

end Commands

section Reports

variable {json : Jsonb J} {o : Outcome} {db db' : Database J} {rows : List (CommandRow J)}
  {st : Statement} {s t : Service J} {e : Event J}

/-- A statement offers at most one row of telemetry. -/
theorem lookup_exec_telemetry (h : st.exec json o db=some (db',rows)) (k : String×Int64) :
    db'.telemetry.lookup k=record (offeredRow json k) (fun r _ => r) (db.telemetry.lookup k)
      (.ran st o.now) := by
  rcases exec_telemetry h with ⟨gatewayId,record,row,rfl,hrow,ht⟩|⟨ht,hno⟩
  · rw [ht,Table.lookup_insertIgnore]
    have hoffered : offeredRow json k (.ran (.insertTelemetry gatewayId record) o.now)=
        if row.key=k then some row else none := by
      rw [offeredRow,hrow]
      rfl
    cases db.telemetry.lookup k with
    | none => exact hoffered.symm
    | some r => rfl
  · rw [ht]
    have hoffered : offeredRow json k (.ran st o.now)=none := by
      cases st with
      | insertTelemetry gatewayId record => exact absurd rfl (hno gatewayId record)
      | _ => rfl
    cases db.telemetry.lookup k with
    | none => exact hoffered.symm
    | some r => rfl

/-- A statement appends at most one report. -/
theorem exec_reports (h : st.exec json o db=some (db',rows)) :
    db'.healthReports=db.healthReports++[Change.ran st o.now].filterMap (healthRow json) ∧
      db'.otaResults=db.otaResults++[(Change.ran st o.now : Change J)].filterMap otaRow := by
  cases st with
  | insertHealthReport gatewayId payloadJson =>
    simp only [Statement.exec,Option.ite_none_right_eq_some,Option.map_eq_some_iff,
      Prod.mk.injEq] at h
    obtain ⟨_,payload,hp,rfl,_⟩ := h
    refine ⟨?_,(List.append_nil _).symm⟩
    simp only [List.filterMap_cons,List.filterMap_nil,healthRow,hp,Option.map_some]
  | insertOtaResult gatewayId updateId targetVersion status detail =>
    simp only [Statement.exec,Option.ite_none_right_eq_some,Option.some.injEq,Prod.mk.injEq] at h
    obtain ⟨_,rfl,_⟩ := h
    exact ⟨(List.append_nil _).symm,rfl⟩
  | insertTelemetry gatewayId record =>
    simp only [Statement.exec,Option.ite_none_left_eq_some,Option.map_eq_some_iff,
      Prod.mk.injEq] at h
    obtain ⟨_,_,_,rfl,_⟩ := h
    exact ⟨(List.append_nil _).symm,(List.append_nil _).symm⟩
  | recordResult =>
    simp only [Statement.exec,Option.ite_none_right_eq_some,Option.map_eq_some_iff,
      Prod.mk.injEq] at h
    obtain ⟨_,_,_,rfl,_⟩ := h
    exact ⟨(List.append_nil _).symm,(List.append_nil _).symm⟩
  | upsertGateway | touchGateway | selectPending | markDelivered =>
    simp only [Statement.exec,Option.ite_none_right_eq_some,Option.some.injEq,Prod.mk.injEq] at h
    obtain ⟨_,rfl,_⟩ := h
    exact ⟨(List.append_nil _).symm,(List.append_nil _).symm⟩

/-- A step appends at most one report. -/
theorem reports_step (hs : step json s e=some t) :
    t.db.healthReports=s.db.healthReports++(changes json s e t).filterMap (healthRow json) ∧
      t.db.otaResults=s.db.otaResults++(changes json s e t).filterMap otaRow := by
  rcases changes_step hs with ⟨hnone,hdb⟩|⟨st,o,rows,hran,hexecuted⟩|⟨c,hinserted,hdb⟩
  · rw [hnone,hdb]
    exact ⟨(List.append_nil _).symm,(List.append_nil _).symm⟩
  · rw [hran]
    exact exec_reports hexecuted
  · rw [hinserted,hdb]
    exact ⟨(List.append_nil _).symm,(List.append_nil _).symm⟩

/-- In every state of every run, each telemetry key holds the row of its first
writer, and the reports are those of the history in its order; nothing of them
is ever changed or removed. -/
theorem reports_of_history (json : Jsonb J) (db : Database J) (es : List (Event J)) (t : Service J)
    (h : run (step json) (Service.start db) es=some t) :
    (∀ k,t.db.telemetry.lookup k=(db.telemetry.lookup k).or
        ((history json (Service.start db) es).findSome? (offeredRow json k))) ∧
      t.db.healthReports=db.healthReports++
        (history json (Service.start db) es).filterMap (healthRow json) ∧
      t.db.otaResults=db.otaResults++(history json (Service.start db) es).filterMap otaRow := by
  refine ⟨fun k => ?_,?_,?_⟩
  · rw [←map_fst_lifetime]
    refine lifetime_run (fun s : Service J => s.db.telemetry.lookup k) (fun r _ => r)
      (fun r _ => r) (fun _ => rfl) (fun _ _ _ => rfl) (fun s e t hs => ?_) h
    refine view_step (fun db => db.telemetry.lookup k)
      (fun st o db rows hx => lookup_exec_telemetry hx k) (fun c => ?_) hs
    dsimp only
    cases s.db.telemetry.lookup k with
    | none => rfl
    | some r => rfl
  · exact append_run (fun s : Service J => s.db.healthReports)
      (fun s e t hs => (reports_step hs).1) h
  · exact append_run (fun s : Service J => s.db.otaResults)
      (fun s e t hs => (reports_step hs).2) h

/-- A key that is uploaded twice, and a health report. -/
def reportsRun : List (Event String) :=
  [.request 0 (.uploadTelemetry "gw" [⟨1,"dev",5,"0"⟩,⟨1,"dev",6,"1"⟩]),.statement 0 .success,
    .statement 0 .success,.statement 0 .success,
    .request 1 (.reportHealth "gw" "{}"),.statement 1 .success,.statement 1 .success]

/-- The first content stays, and the report is stored. -/
theorem reports_of_history_reportsRun :
    ∃ t,run (step .sample) (Service.start Database.empty) reportsRun=some t ∧
      (t.db.telemetry.lookup ("gw",1)).map TelemetryRow.payload=some "0" ∧
      t.db.healthReports=[⟨"gw","{}",some 0⟩] := by
  obtain ⟨htelemetry,hhealth,_⟩ :=
    reports_of_history .sample Database.empty reportsRun _ rfl
  refine ⟨_,rfl,?_,hhealth⟩
  rw [htelemetry]
  rfl

end Reports

end Greenhouse.CloudHistory
