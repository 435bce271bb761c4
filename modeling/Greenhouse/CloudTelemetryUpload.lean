import Greenhouse.CloudService

/-!
# Acknowledgement of uploaded telemetry

UploadTelemetry accepts a record whenever its INSERT does not fail, also when
the row was skipped because the gateway has used the local id before. A stored
row never changes, so an accepted record is stored exactly when the row its
INSERT found or made has the content of the record.
-/

namespace Greenhouse.CloudTelemetryUpload

open KeyedTable CloudDatabase CloudHandlers CloudService TemporalRuns

variable {J : Type}

/-- A call of the gateway that carries the record has accepted its local id,
in progress or in its response. -/
def Acknowledged (gatewayId : String) (record : TelemetryRecord) (s : Service J) : Prop :=
  (∃ i c,s.calls i=some c ∧ c.request.gatewayId=gatewayId ∧ record∈c.request.records ∧
    record.localId∈c.frame.acceptedLocalIds) ∨
  ∃ x∈s.returned,x.1.gatewayId=gatewayId ∧ record∈x.1.records ∧
    record.localId∈x.2.acceptedLocalIds

/-- The row has the device, the time and the JSON value of the record. -/
def Carries (json : Jsonb J) (row : TelemetryRow J) (record : TelemetryRecord) : Prop :=
  row.deviceId=record.deviceId ∧ bigint record.timestampMs=some row.timestampMs ∧
    json.parse record.payloadJson=some row.payload

/-- The record is stored for the gateway. -/
def Stored (json : Jsonb J) (gatewayId : String) (record : TelemetryRecord) (s : Service J) : Prop :=
  ∃ row∈s.db.telemetry.rows,row.key=(gatewayId,record.localId) ∧ Carries json row record

/-- Every acknowledged record is stored from the acknowledgement on. -/
def AcknowledgedStays (json : Jsonb J) : Service J → List (Event J) → Prop :=
  Globally (step json) fun s rest =>
    ∀ gatewayId record,Acknowledged gatewayId record s →
      EachState (step json) (Stored json gatewayId record) s rest

/-- Whenever the INSERT of a record succeeds, the row already stored under its
key, or the record itself when there is none, has the content of every record
of the batch with that local id. -/
def InsertsAgree (json : Jsonb J) (s : Service J) (e : Event J) (_ : Service J) : Prop :=
  ∀ i o c gatewayId record,e=.statement i o → s.calls i=some c →
    c.frame.next=.inl (.insertTelemetry gatewayId record) →
    (Statement.exec json o s.db (.insertTelemetry gatewayId record)).isSome=true →
    ∀ other∈c.request.records,other.localId=record.localId →
      (∀ row∈s.db.telemetry.rows,row.key=(gatewayId,record.localId) → Carries json row other) ∧
      ((gatewayId,record.localId)∉s.db.telemetry.rows.map TelemetryRow.key →
        other.deviceId=record.deviceId ∧ bigint other.timestampMs=bigint record.timestampMs ∧
          json.parse other.payloadJson=json.parse record.payloadJson)

variable {json : Jsonb J} {s t : Service J} {e : Event J} {gatewayId : String}
  {record : TelemetryRecord}

/-- The row of a record carries it under its key. -/
theorem carries_telemetryRow {now : Timestamp} {row : TelemetryRow J}
    (h : telemetryRow json now gatewayId record=some row) :
    row.key=(gatewayId,record.localId) ∧ Carries json row record := by
  obtain ⟨_,timestampMs,payload,ht,hp,rfl⟩ := telemetryRow_eq_some.mp h
  exact ⟨rfl,rfl,ht,hp⟩

/-- No step removes or changes a telemetry row. -/
theorem telemetry_of_step (hs : step json s e=some t) {row : TelemetryRow J}
    (hr : row∈s.db.telemetry.rows) : row∈t.db.telemetry.rows := by
  cases step_transition hs with
  | executes call next exec =>
    rcases exec_telemetry exec with ⟨_,_,_,_,_,ht⟩|⟨ht,_⟩
    · exact ht ▸ Table.mem_insertIgnore_of_mem hr
    · exact ht ▸ hr
  | request | fails | reply | receive | abort | insertCommand => exact hr

/-- A stored record stays stored. -/
theorem Stored.step (h : Stored json gatewayId record s) (hs : step json s e=some t) :
    Stored json gatewayId record t := by
  obtain ⟨row,hr,hc⟩ := h
  exact ⟨row,telemetry_of_step hs hr,hc⟩

/-- A stored record stays stored along every run. -/
theorem Stored.eachState (h : Stored json gatewayId record s) (es : List (Event J)) :
    EachState (CloudService.step json) (Stored json gatewayId record) s es := by
  induction es generalizing s with
  | nil => exact h
  | cons e es ih => exact ⟨h,fun t ht => ih (h.step ht)⟩

/-- A new call has accepted nothing. -/
theorem acceptedLocalIds_start (req : Request) : (Call.start req).frame.acceptedLocalIds=[] := by
  cases req <;> rfl

/-- An accepted id was accepted before, or the INSERT of its record is answered. -/
theorem acceptedLocalIds_resume {answer : Option (List (CommandRow J)×Fetch)} {c : Call}
    {id : Int64} (hid : id∈(c.resume json answer).frame.acceptedLocalIds) :
    id∈c.frame.acceptedLocalIds ∨ ∃ gatewayId record todo accepted,
      c.frame=.insertRecords gatewayId (record::todo) accepted ∧ answer.isSome=true ∧
        id=record.localId := by
  rcases c.wellFormed.upload_resume json answer with
    ⟨_,ha,_⟩|⟨gatewayId,record,todo,accepted,hf,hr⟩
  · exact Or.inl (ha ▸ hid)
  · dsimp only [Call.resume] at hid
    rw [hr,Frame.acceptedLocalIds] at hid
    split at hid
    · rename_i ha
      rcases List.mem_append.mp hid with hid|hid
      · exact Or.inl (by rw [hf]; exact hid)
      · exact Or.inr ⟨gatewayId,record,todo,accepted,hf,ha,List.mem_singleton.mp hid⟩
    · exact Or.inl (by rw [hf]; exact hid)

/-- A record is acknowledged by a step only when an INSERT of a record with
its local id succeeds in a call that carries it. -/
theorem acknowledged_of_step (hs : step json s e=some t) (h : Acknowledged gatewayId record t) :
    Acknowledged gatewayId record s ∨ ∃ i o c inserted,e=.statement i o ∧ s.calls i=some c ∧
      c.frame.next=.inl (.insertTelemetry gatewayId inserted) ∧
      (Statement.exec json o s.db (.insertTelemetry gatewayId inserted)).isSome=true ∧
      record∈c.request.records ∧ record.localId=inserted.localId := by
  rcases h with ⟨j,d,hd,hg,hr,hid⟩|⟨x,hx,hg,hr,hid⟩
  · have hkeep : s.calls j=some d → Acknowledged gatewayId record s :=
      fun hc => Or.inl ⟨j,d,hc,hg,hr,hid⟩
    cases step_transition hs with
    | request free =>
      rcases setCall_eq_some.mp hd with ⟨_,he⟩|⟨_,hc⟩
      · obtain rfl := Option.some.inj he
        rw [acceptedLocalIds_start] at hid
        exact absurd hid List.not_mem_nil
      · exact Or.inl (hkeep hc)
    | fails call next exec =>
      rcases setCall_eq_some.mp hd with ⟨_,he⟩|⟨_,hc⟩
      · obtain rfl := Option.some.inj he
        rcases acceptedLocalIds_resume hid with hid|⟨_,_,_,_,_,ha,_⟩
        · exact Or.inl (Or.inl ⟨_,_,call,hg,hr,hid⟩)
        · cases ha
      · exact Or.inl (hkeep hc)
    | @executes i o c st db rows call next exec =>
      rcases setCall_eq_some.mp hd with ⟨_,he⟩|⟨_,hc⟩
      · obtain rfl := Option.some.inj he
        rcases acceptedLocalIds_resume hid with
          hid|⟨gatewayId',inserted,todo,accepted,hf,_,he⟩
        · exact Or.inl (Or.inl ⟨_,_,call,hg,hr,hid⟩)
        · rw [hf] at next
          cases next
          have hnext : c.frame.next=.inl (.insertTelemetry gatewayId' inserted) := by
            rw [hf]
            rfl
          obtain ⟨_,_,_,hq,_⟩ := c.wellFormed.of_insertTelemetry hnext
          have hgw : gatewayId'=gatewayId := by
            rw [←hg]
            dsimp only [Call.resume]
            rw [hq]
            rfl
          subst hgw
          exact Or.inr ⟨_,_,_,inserted,rfl,call,hnext,by rw [exec]; rfl,hr,he⟩
      · exact Or.inl (hkeep hc)
    | reply call next | abort call =>
      rcases setCall_eq_some.mp hd with ⟨_,he⟩|⟨_,hc⟩
      · cases he
      · exact Or.inl (hkeep hc)
    | receive sent | insertCommand fresh => exact Or.inl (hkeep hd)
  · refine Or.inl ?_
    cases step_transition hs with
    | reply call next =>
      rcases List.mem_append.mp hx with hx|hx
      · exact Or.inr ⟨x,hx,hg,hr,hid⟩
      · obtain rfl := List.mem_singleton.mp hx
        rw [(Call.wellFormed _).acceptedLocalIds_next next] at hid
        exact Or.inl ⟨_,_,call,hg,hr,hid⟩
    | request | fails | executes | receive | abort | insertCommand =>
      exact Or.inr ⟨x,hx,hg,hr,hid⟩

/-- Every acknowledged record is stored. -/
def AcknowledgedStored (json : Jsonb J) (s : Service J) : Prop :=
  ∀ gatewayId record,Acknowledged gatewayId record s → Stored json gatewayId record s

/-- Acknowledged records stay stored along a run exactly when they are stored
in every visited state. -/
theorem acknowledgedStays_iff {es : List (Event J)} : AcknowledgedStays json s es ↔
    EachState (step json) (AcknowledgedStored json) s es := by
  induction es generalizing s with
  | nil => exact Iff.rfl
  | cons e es ih =>
    constructor
    · intro h
      exact ⟨fun gatewayId record ha => (h.1 gatewayId record ha).1,fun t ht => ih.mp (h.2 t ht)⟩
    · intro h
      exact ⟨fun gatewayId record ha => (h.1 gatewayId record ha).eachState _,
        fun t ht => ih.mpr (h.2 t ht)⟩

/-- After the row of a record has been offered, another record with its local
id is stored exactly when the found or added row carries it. -/
theorem stored_insertIgnore_iff {row : TelemetryRow J} {inserted other : TelemetryRecord}
    (hk : row.key=(gatewayId,inserted.localId)) (hc : Carries json row inserted)
    (hid : other.localId=inserted.localId)
    (ht : t.db.telemetry=s.db.telemetry.insertIgnore row) :
    Stored json gatewayId other t ↔
      (∀ old∈s.db.telemetry.rows,old.key=(gatewayId,inserted.localId) → Carries json old other) ∧
      ((gatewayId,inserted.localId)∉s.db.telemetry.rows.map TelemetryRow.key →
        other.deviceId=inserted.deviceId ∧ bigint other.timestampMs=bigint inserted.timestampMs ∧
          json.parse other.payloadJson=json.parse inserted.payloadJson) := by
  obtain ⟨hd,hm,hp⟩ := hc
  constructor
  · rintro ⟨found,hf,hfk,hfc⟩
    rw [hid] at hfk
    rw [ht] at hf
    constructor
    · intro old hold hok
      rw [Table.eq_of_key _ (Table.mem_insertIgnore_of_mem hold) hf (hok.trans hfk.symm)]
      exact hfc
    · intro hn
      rcases Table.mem_insertIgnore.mp hf with hf|⟨rfl,_⟩
      · exact absurd (List.mem_map.mpr ⟨found,hf,hfk⟩) hn
      · exact ⟨hfc.1.symm.trans hd,hfc.2.1.trans hm.symm,hfc.2.2.trans hp.symm⟩
  · rintro ⟨hold,hnew⟩
    by_cases hn : (gatewayId,inserted.localId)∈s.db.telemetry.rows.map TelemetryRow.key
    · obtain ⟨old,ho,hok⟩ := List.mem_map.mp hn
      exact ⟨old,ht ▸ Table.mem_insertIgnore_of_mem ho,by rw [hok,hid],hold old ho hok⟩
    · obtain ⟨hd',hm',hp'⟩ := hnew hn
      refine ⟨row,ht ▸ Table.mem_insertIgnore.mpr (Or.inr ⟨rfl,hk ▸ hn⟩),by rw [hk,hid],?_⟩
      exact ⟨hd.trans hd'.symm,hm'.trans hm,hp'.trans hp⟩

/-- An INSERT that succeeds acknowledges every record of its batch with the
same local id. -/
theorem acknowledged_insert {i : ℕ} {o : Outcome} {c : Call} {inserted : TelemetryRecord}
    (hs : step json s (.statement i o)=some t) (hc : s.calls i=some c)
    (hn : c.frame.next=.inl (.insertTelemetry gatewayId inserted))
    (hx : (Statement.exec json o s.db (.insertTelemetry gatewayId inserted)).isSome=true) :
    (∃ row,row.key=(gatewayId,inserted.localId) ∧ Carries json row inserted ∧
      t.db.telemetry=s.db.telemetry.insertIgnore row) ∧
    ∀ other∈c.request.records,other.localId=inserted.localId → Acknowledged gatewayId other t := by
  obtain ⟨done,todo,accepted,hq,hf⟩ := c.wellFormed.of_insertTelemetry hn
  cases step_transition hs with
  | fails call next exec =>
    cases hc.symm.trans call
    cases hn.symm.trans next
    rw [exec] at hx
    cases hx
  | executes call next exec =>
    cases hc.symm.trans call
    cases hn.symm.trans next
    constructor
    · rcases exec_telemetry exec with ⟨_,_,row,he,hrow,ht⟩|⟨_,he⟩
      · cases he
        obtain ⟨hk,hcar⟩ := carries_telemetryRow hrow
        exact ⟨row,hk,hcar,ht⟩
      · exact absurd rfl (he gatewayId inserted)
    · intro other ho hid
      refine Or.inl ⟨i,_,setCall_self s.calls i _,?_,ho,?_⟩
      · dsimp only [Call.resume]
        rw [hq]
        rfl
      · dsimp only [Call.resume]
        rw [hf,hid]
        exact List.mem_append_right accepted (List.mem_singleton_self _)

/-- One step keeps the law exactly when a successful INSERT agrees with its batch. -/
theorem acknowledgedStored_step (h : AcknowledgedStored json s) (hs : step json s e=some t) :
    AcknowledgedStored json t ↔ InsertsAgree json s e t := by
  constructor
  · rintro ht i o c gatewayId inserted rfl hc hn hx other ho hid
    obtain ⟨⟨row,hk,hcar,htel⟩,hack⟩ := acknowledged_insert hs hc hn hx
    exact (stored_insertIgnore_iff hk hcar hid htel).mp (ht gatewayId other (hack other ho hid))
  · intro hg gatewayId record ha
    rcases acknowledged_of_step hs ha with hold|⟨i,o,c,inserted,rfl,hc,hn,hx,hr,hid⟩
    · exact (h gatewayId record hold).step hs
    · obtain ⟨⟨row,hk,hcar,htel⟩,_⟩ := acknowledged_insert hs hc hn hx
      exact (stored_insertIgnore_iff hk hcar hid htel).mpr
        (hg i o c gatewayId inserted rfl hc hn hx record hr hid)

/-- Acknowledged records are stored along a run exactly when every successful
INSERT agrees with the records of its batch that share its local id. -/
theorem acknowledgedStays_iff_insertsAgree (json : Jsonb J) (db : Database J)
    (es : List (Event J)) :
    AcknowledgedStays json (Service.start db) es ↔
      EachStep (step json) (InsertsAgree json) (Service.start db) es := by
  rw [acknowledgedStays_iff]
  refine eachState_iff_eachStep (I:=fun _ => True) (G:=fun _ _ _ => True) (fun _ _ _ _ _ _ => trivial)
    (fun _ _ _ _ _ hs hp => acknowledgedStored_step hp hs) trivial ?_ (EachStep.trivial _ _)
  rintro gatewayId record (⟨i,c,hc,_⟩|⟨x,hx,_⟩)
  · cases hc
  · exact absurd hx List.not_mem_nil

/-- A gateway whose counter has restarted uploads another record with its first id. -/
def reusedIdRun : List (Event String) :=
  [.request 0 (.uploadTelemetry "gw" [⟨0,"dev",1,"0"⟩]),.statement 0 .success,
    .statement 0 .success,.reply 0,
    .request 0 (.uploadTelemetry "gw" [⟨0,"dev",2,"1"⟩]),.statement 0 .success,
    .statement 0 .success,.reply 0]

/-- The second record is acknowledged although it was skipped. -/
theorem acknowledged_skipped :
    ¬AcknowledgedStays .sample (Service.start Database.empty) reusedIdRun := by
  intro h
  rw [acknowledgedStays_iff] at h
  obtain ⟨t,hr,ha,hn⟩ : ∃ t,run (step .sample) (Service.start Database.empty) reusedIdRun=some t ∧
      Acknowledged "gw" ⟨0,"dev",2,"1"⟩ t ∧ ¬Stored .sample "gw" ⟨0,"dev",2,"1"⟩ t := by
    refine ⟨_,rfl,Or.inr ?_,?_⟩
    · decide
    · rintro ⟨row,hrow,_,_,hm,_⟩
      obtain rfl := List.mem_singleton.mp hrow
      exact absurd hm (by decide)
  exact hn (h.final hr "gw" ⟨0,"dev",2,"1"⟩ ha)

end Greenhouse.CloudTelemetryUpload
