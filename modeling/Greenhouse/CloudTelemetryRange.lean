import Greenhouse.CloudTelemetryUpload

/-!
# The range of uploaded timestamps

A record carries its time as a uint64 and the column is a signed BIGINT, so
the INSERT of a record from the upper half of the range fails on every attempt
and UploadTelemetry skips the record. A batch of new records is acknowledged
and stored as a whole exactly when all its times are below 2^63, its gateway_id
is a possible TEXT value and the database takes every payload as JSONB.
-/

namespace Greenhouse.CloudTelemetryRange

open KeyedTable CloudDatabase CloudHandlers CloudService CloudTelemetryUpload TemporalRuns

variable {J : Type}

/-- Every record of the batch can be offered to the database: its local id is
new for the gateway and used once, and its device is a possible text. -/
structure Acceptable (gatewayId : String) (db : Database J) (records : List TelemetryRecord) :
    Prop where
  distinct : (records.map TelemetryRecord.localId).Nodup
  fresh : ∀ r∈records,(gatewayId,r.localId)∉db.telemetry.rows.map TelemetryRow.key
  device : ∀ r∈records,textOk r.deviceId=true

/-- The gateway, the time and the payload of a record fit the columns they are
stored in. -/
def representable (json : Jsonb J) (gatewayId : String) (record : TelemetryRecord) : Bool :=
  textOk gatewayId && decide (record.timestampMs.toNat<2^63) &&
    (json.parse record.payloadJson).isSome

/-- The events of one UploadTelemetry call that nothing interrupts. -/
def upload (i : ℕ) (gatewayId : String) (records : List TelemetryRecord) (outcomes : List Outcome) :
    List (Event J) :=
  .request i (.uploadTelemetry gatewayId records)::(outcomes.map (.statement i)++[.reply i])

/-- The call has acknowledged every record in order, and the row stored under
the key of a record has its numbers, its device and its payload. -/
def UploadedFaithfully (json : Jsonb J) (gatewayId : String) (records : List TelemetryRecord)
    (s t : Service J) : Prop :=
  t.returned=s.returned++
      [(.uploadTelemetry gatewayId records,.uploadTelemetry (records.map TelemetryRecord.localId))] ∧
    ∀ r∈records,∃ row∈t.db.telemetry.rows,row.gatewayId=gatewayId ∧
      row.localId.toInt=r.localId.toInt ∧ row.timestampMs.toInt=r.timestampMs.toNat ∧
      row.deviceId=r.deviceId ∧ json.parse r.payloadJson=some row.payload

variable {json : Jsonb J} {s t : Service J} {gatewayId : String} {record : TelemetryRecord}

/-- A BIGINT parameter keeps its number. -/
theorem toInt_bigint {n : UInt64} {m : Int64} (h : bigint n=some m) : m.toInt=n.toNat := by
  simp only [bigint,Option.ite_none_right_eq_some,Option.some.injEq] at h
  obtain ⟨hlt,rfl⟩ := h
  exact Int64.toInt_ofNat_of_lt hlt

/-- Only a representable record becomes a row. -/
theorem representable_of_telemetryRow {now : Timestamp} {row : TelemetryRow J}
    (h : telemetryRow json now gatewayId record=some row) :
    representable json gatewayId record=true := by
  obtain ⟨htext,m,payload,hm,hp,_⟩ := telemetryRow_eq_some.mp h
  simp only [bigint,Option.ite_none_right_eq_some] at hm
  simp only [representable,(Bool.and_eq_true_iff.mp htext).1,hm.1,hp,decide_true,Option.isSome_some,
    Bool.and_self]

/-- A representable record with a possible device becomes a row. -/
theorem exists_telemetryRow (now : Timestamp) (hd : textOk record.deviceId=true)
    (h : representable json gatewayId record=true) :
    ∃ row,telemetryRow json now gatewayId record=some row := by
  obtain ⟨hgt,hp⟩ := Bool.and_eq_true_iff.mp h
  obtain ⟨hg,ht⟩ := Bool.and_eq_true_iff.mp hgt
  obtain ⟨payload,hpayload⟩ := Option.isSome_iff_exists.mp hp
  have hbigint : bigint record.timestampMs=some (Int64.ofNat record.timestampMs.toNat) :=
    if_pos (of_decide_eq_true ht)
  have htext : (textOk gatewayId && textOk record.deviceId)=true := by rw [hg,hd]; rfl
  exact ⟨_,telemetryRow_eq_some.mpr ⟨htext,_,payload,hbigint,hpayload,rfl⟩⟩

/-- A batch stays acceptable when its first record has been offered. -/
theorem Acceptable.tail {db db' : Database J} {records : List TelemetryRecord}
    (h : Acceptable gatewayId db (record::records))
    (hdb : ∀ k∈db'.telemetry.rows.map TelemetryRow.key,
      k∈db.telemetry.rows.map TelemetryRow.key ∨ k=(gatewayId,record.localId)) :
    Acceptable gatewayId db' records where
  distinct := (List.nodup_cons.mp h.distinct).2
  fresh := by
    intro r hr hk
    rcases hdb _ hk with hk|hk
    · exact h.fresh r (List.mem_cons_of_mem _ hr) hk
    · have hid : r.localId=record.localId := (Prod.mk.inj hk).2
      exact (List.nodup_cons.mp h.distinct).1 (hid ▸ List.mem_map_of_mem hr)
  device := fun r hr => h.device r (List.mem_cons_of_mem _ hr)

/-- One turn of the loop: a representable record is stored and its id is
accepted, any other record is skipped. -/
theorem insert_step {i : ℕ} {c : Call} {o : Outcome} {todo : List TelemetryRecord}
    {accepted : List Int64} (hc : s.calls i=some c)
    (hf : c.frame=.insertRecords gatewayId (record::todo) accepted) (ho : o.fails=false)
    (ha : Acceptable gatewayId s.db (record::todo)) :
    ∃ u d,step json s (.statement i o)=some u ∧ u.calls i=some d ∧ u.returned=s.returned ∧
      d.request=c.request ∧ Acceptable gatewayId u.db todo ∧
      d.frame=.insertRecords gatewayId todo (if representable json gatewayId record=true then
        accepted++[record.localId] else accepted) ∧
      (representable json gatewayId record=true → Stored json gatewayId record u) := by
  have hn : c.frame.next=.inl (.insertTelemetry gatewayId record) := by
    rw [hf]
    rfl
  cases hr : representable json gatewayId record with
  | true =>
    obtain ⟨row,hrow⟩ := exists_telemetryRow o.now (ha.device record List.mem_cons_self) hr
    have hkey := (carries_telemetryRow hrow).1
    have hx : (Statement.insertTelemetry gatewayId record).exec json o s.db=
        some ({s.db with telemetry := s.db.telemetry.insertIgnore row},[]) := by
      simp only [Statement.exec,ho,Bool.false_eq_true,if_false,hrow,Option.map_some]
    refine ⟨_,_,(Transition.executes hc hn hx).step,setCall_self s.calls i _,rfl,rfl,
      ha.tail ?_,?_,fun _ => ?_⟩
    · intro k hk
      obtain ⟨old,ho,rfl⟩ := List.mem_map.mp hk
      rcases Table.mem_insertIgnore.mp ho with ho|⟨rfl,_⟩
      · exact Or.inl (List.mem_map_of_mem ho)
      · exact Or.inr hkey
    · dsimp only [Call.resume]
      rw [hf]
      rfl
    · have hnew : row.key∉s.db.telemetry.rows.map TelemetryRow.key :=
        hkey ▸ ha.fresh record List.mem_cons_self
      exact ⟨row,Table.mem_insertIgnore.mpr (Or.inr ⟨rfl,hnew⟩),carries_telemetryRow hrow⟩
  | false =>
    have hrow : telemetryRow json o.now gatewayId record=none := by
      cases hrow : telemetryRow json o.now gatewayId record with
      | none => rfl
      | some row => exact absurd (representable_of_telemetryRow hrow) (ne_true_of_eq_false hr)
    have hx : (Statement.insertTelemetry gatewayId record).exec json o s.db=none := by
      simp only [Statement.exec,ho,Bool.false_eq_true,if_false,hrow,Option.map_none]
    refine ⟨_,_,(Transition.fails hc hn hx).step,setCall_self s.calls i _,rfl,rfl,
      ha.tail fun k hk => Or.inl hk,?_,fun ht => absurd ht Bool.false_ne_true⟩
    dsimp only [Call.resume]
    rw [hf]
    rfl

/-- The loop over an acceptable batch runs to its response, which accepts the
representable records in order, and each of them is stored. -/
theorem inserts_run {i : ℕ} {c : Call} {outcomes : List Outcome} {todo : List TelemetryRecord}
    {accepted : List Int64} (hc : s.calls i=some c)
    (hf : c.frame=.insertRecords gatewayId todo accepted) (hn : outcomes.length=todo.length)
    (ho : ∀ o∈outcomes,o.fails=false) (ha : Acceptable gatewayId s.db todo) :
    ∃ t,run (step json) s (outcomes.map (.statement i)++[.reply i])=some t ∧
      t.returned=s.returned++[(c.request,.uploadTelemetry (accepted++
        (todo.filter (representable json gatewayId)).map TelemetryRecord.localId))] ∧
      ∀ r∈todo,representable json gatewayId r=true → Stored json gatewayId r t := by
  induction todo generalizing s c outcomes accepted with
  | nil =>
    obtain rfl := List.length_eq_zero_iff.mp hn
    have hnext : c.frame.next=.inr (.uploadTelemetry accepted) := by
      rw [hf]
      rfl
    refine ⟨_,run_cons.mpr ⟨_,(Transition.reply hc hnext).step,rfl⟩,?_,nofun⟩
    rw [List.filter_nil,List.map_nil,List.append_nil]
  | cons record todo ih =>
    cases outcomes with
    | nil => cases hn
    | cons o outcomes =>
      obtain ⟨u,d,hu,hd,hreturned,hreq,hau,hfd,hstored⟩ :=
        insert_step hc hf (ho o List.mem_cons_self) ha
      obtain ⟨t,hr,ht,hall⟩ := ih hd hfd (Nat.succ.inj hn)
        (fun o h => ho o (List.mem_cons_of_mem _ h)) hau
      refine ⟨t,run_cons.mpr ⟨u,hu,hr⟩,?_,?_⟩
      · rw [ht,hreturned,hreq,List.filter_cons]
        split
        · rw [List.map_cons,List.append_assoc,List.singleton_append]
        · rfl
      · intro r hr' hrep
        rcases List.mem_cons.mp hr' with rfl|hr'
        · exact ((hstored hrep).eachState _).final hr
        · exact hall r hr' hrep

/-- The update of last_seen, answered or not, leads to the loop over the
records with the telemetry unchanged. -/
theorem touch_step (json : Jsonb J) {i : ℕ} {c : Call} (o : Outcome) {records : List TelemetryRecord}
    (hc : s.calls i=some c) (hf : c.frame=uploadTelemetry gatewayId records) :
    ∃ u d,step json s (.statement i o)=some u ∧ u.calls i=some d ∧ u.returned=s.returned ∧
      u.db.telemetry=s.db.telemetry ∧ d.request=c.request ∧
      d.frame=.insertRecords gatewayId records [] := by
  have hn : c.frame.next=.inl (.touchGateway gatewayId) := by
    rw [hf]
    rfl
  have hframe : ∀ answer,(c.resume json answer).frame=.insertRecords gatewayId records [] := by
    intro answer
    dsimp only [Call.resume]
    rw [hf]
    rfl
  cases hx : (Statement.touchGateway gatewayId).exec json o s.db with
  | none =>
    exact ⟨_,_,(Transition.fails hc hn hx).step,setCall_self s.calls i _,rfl,rfl,rfl,hframe none⟩
  | some result =>
    obtain ⟨db,rows⟩ := result
    rcases exec_telemetry hx with ⟨_,_,_,he,_⟩|⟨htelemetry,_⟩
    · cases he
    · exact ⟨_,_,(Transition.executes hc hn hx).step,setCall_self s.calls i _,rfl,htelemetry,rfl,
        hframe _⟩

/-- A call whose statements meet no connection failure runs to its response. -/
theorem upload_run {i : ℕ} {outcomes : List Outcome} {records : List TelemetryRecord}
    (hfree : s.calls i=none) (hn : outcomes.length=records.length+1)
    (ho : ∀ o∈outcomes,o.fails=false) (ha : Acceptable gatewayId s.db records) :
    ∃ t,run (step json) s (upload i gatewayId records outcomes)=some t ∧
      t.returned=s.returned++[(.uploadTelemetry gatewayId records,.uploadTelemetry
        ((records.filter (representable json gatewayId)).map TelemetryRecord.localId))] ∧
      ∀ r∈records,representable json gatewayId r=true → Stored json gatewayId r t := by
  cases outcomes with
  | nil => cases hn
  | cons o outcomes =>
    obtain ⟨s₁,h₁,hreturned₁,hdb₁,hc₁⟩ : ∃ u,
        step json s (.request i (.uploadTelemetry gatewayId records))=some u ∧
        u.returned=s.returned ∧ u.db=s.db ∧
        u.calls i=some (.start (.uploadTelemetry gatewayId records)) :=
      ⟨_,(Transition.request hfree).step,rfl,rfl,
        setCall_self s.calls i (some (.start (.uploadTelemetry gatewayId records)))⟩
    have hf₁ : (Call.start (.uploadTelemetry gatewayId records)).frame=
        uploadTelemetry gatewayId records := rfl
    obtain ⟨s₂,c,h₂,hc₂,hreturned₂,htelemetry,hq,hf⟩ := touch_step json o hc₁ hf₁
    have ha₂ : Acceptable gatewayId s₂.db records :=
      ⟨ha.distinct,by rw [htelemetry,hdb₁]; exact ha.fresh,ha.device⟩
    obtain ⟨t,hr,ht,hstored⟩ := inserts_run hc₂ hf (Nat.succ.inj hn)
      (fun o h => ho o (List.mem_cons_of_mem _ h)) ha₂
    refine ⟨t,run_cons.mpr ⟨s₁,h₁,run_cons.mpr ⟨s₂,h₂,hr⟩⟩,?_,hstored⟩
    rw [ht,hreturned₂,hreturned₁,hq,List.nil_append]
    rfl

/-- A stored record has a row with its numbers. -/
theorem numbers_of_stored (h : Stored json gatewayId record s) :
    ∃ row∈s.db.telemetry.rows,row.gatewayId=gatewayId ∧
      row.localId.toInt=record.localId.toInt ∧ row.timestampMs.toInt=record.timestampMs.toNat ∧
      row.deviceId=record.deviceId ∧ json.parse record.payloadJson=some row.payload := by
  obtain ⟨row,hr,hkey,hdevice,htime,hpayload⟩ := h
  obtain ⟨hg,hid⟩ := Prod.mk.inj hkey
  exact ⟨row,hr,hg,congrArg Int64.toInt hid,toInt_bigint htime,hdevice,hpayload⟩

/-- An acceptable batch is acknowledged and stored as a whole exactly when
every record of it is representable: its gateway is a possible text, its time is
in the range of the column, and the database takes its payload. -/
theorem uploaded_iff_representable (json : Jsonb J) (s : Service J) (i : ℕ) (gatewayId : String)
    (records : List TelemetryRecord) (outcomes : List Outcome) (hfree : s.calls i=none)
    (hn : outcomes.length=records.length+1) (ho : ∀ o∈outcomes,o.fails=false)
    (ha : Acceptable gatewayId s.db records) :
    ∃ t,run (step json) s (upload i gatewayId records outcomes)=some t ∧
      (UploadedFaithfully json gatewayId records s t ↔
        ∀ r∈records,textOk gatewayId=true ∧ r.timestampMs.toNat<2^63 ∧
          (json.parse r.payloadJson).isSome=true) := by
  obtain ⟨t,hr,ht,hstored⟩ := upload_run hfree hn ho ha
  have hrep : ∀ r,representable json gatewayId r=true ↔
      textOk gatewayId=true ∧ r.timestampMs.toNat<2^63 ∧
        (json.parse r.payloadJson).isSome=true := by
    intro r
    rw [representable,Bool.and_eq_true,Bool.and_eq_true,decide_eq_true_eq,and_assoc]
  refine ⟨t,hr,?_,?_⟩
  · rintro ⟨hall,_⟩ r hmem
    rw [ht] at hall
    have hresponse := List.append_cancel_left hall
    simp only [List.cons.injEq,Prod.mk.injEq,Response.uploadTelemetry.injEq,true_and,
      and_true] at hresponse
    have hlength : (records.filter (representable json gatewayId)).length=records.length := by
      simpa only [List.length_map] using congrArg List.length hresponse
    exact (hrep r).mp (List.length_filter_eq_length_iff.mp hlength r hmem)
  · intro h
    have hkept : records.filter (representable json gatewayId)=records :=
      List.filter_eq_self.mpr fun r hmem => (hrep r).mpr (h r hmem)
    refine ⟨by rw [ht,hkept],fun r hmem => ?_⟩
    exact numbers_of_stored (hstored r hmem ((hrep r).mpr (h r hmem)))

/-- The gateway's records with this local id, in requests of the run, have a
time outside the column. -/
def SentOutOfRange (gatewayId : String) (id : Int64) (_ : Service J) (e : Event J)
    (_ : Service J) : Prop :=
  ∀ i records,e=.request i (.uploadTelemetry gatewayId records) →
    ∀ r∈records,r.localId=id → 2^63≤r.timestampMs.toNat

/-- No call has such a record in range, and no such record is acknowledged. -/
structure Stuck (gatewayId : String) (id : Int64) (s : Service J) : Prop where
  inProgress : ∀ i c records,s.calls i=some c → c.request=.uploadTelemetry gatewayId records →
    ∀ r∈records,r.localId=id → 2^63≤r.timestampMs.toNat
  unacknowledged : ∀ r,r.localId=id → ¬Acknowledged gatewayId r s

/-- One step does not acknowledge a record that is out of range. -/
theorem Stuck.step {id : Int64} {e : Event J} (h : Stuck gatewayId id s)
    (hg : SentOutOfRange gatewayId id s e t) (hs : step json s e=some t) : Stuck gatewayId id t where
  inProgress := by
    intro i d records hd hq r hr hid
    rcases request_of_step hs hd with ⟨c,hc,he⟩|he
    · exact h.inProgress i c records hc (he.trans hq) r hr hid
    · exact hg i records (hq ▸ he) r hr hid
  unacknowledged := by
    intro r hid ha
    rcases acknowledged_of_step hs ha with ha|⟨i,o,c,inserted,_,hc,hn,hx,_,hri⟩
    · exact h.unacknowledged r hid ha
    · obtain ⟨done,todo,_,hq,_⟩ := c.wellFormed.of_insertTelemetry hn
      have hmem : inserted∈done++inserted::todo := List.mem_append_right _ List.mem_cons_self
      have hout := h.inProgress i c _ hc hq inserted hmem (hri.symm.trans hid)
      obtain ⟨result,hresult⟩ := Option.isSome_iff_exists.mp hx
      simp only [Statement.exec,Option.ite_none_left_eq_some,Option.map_eq_some_iff] at hresult
      obtain ⟨_,row,hrow,_⟩ := hresult
      have hrep := representable_of_telemetryRow hrow
      simp only [representable,Bool.and_eq_true,decide_eq_true_eq] at hrep
      omega

/-- A record that is out of range is not acknowledged however often and in
whatever company the gateway sends it. -/
theorem never_acknowledged (json : Jsonb J) (db : Database J) (gatewayId : String) (id : Int64)
    (es : List (Event J))
    (h : EachStep (step json) (SentOutOfRange gatewayId id) (Service.start db) es) :
    EachState (step json) (Stuck gatewayId id) (Service.start db) es := by
  refine eachState_of_invariant (fun s e t hi hg hs => hi.step hg hs) ⟨?_,?_⟩ h
  · intro i c records hc
    cases hc
  · rintro r _ (⟨i,c,hc,_⟩|⟨x,hx,_⟩)
    · cases hc
    · exact absurd hx List.not_mem_nil

/-- A record of a node whose clock has fallen below zero. -/
def underflowed : TelemetryRecord := ⟨1,"node",18446744073709551615,"{}"⟩

/-- A record with the last time the column can hold. -/
def lastTime : TelemetryRecord := ⟨2,"node",9223372036854775807,"{}"⟩

/-- Two records at the ends of the column are stored. -/
theorem uploaded_iff_representable_lastTime : ∃ t,run (step .sample)
      (Service.start Database.empty) (upload 0 "gw" [lastTime,⟨3,"node",0,"{}"⟩]
        (List.replicate 3 .success))=some t ∧
    UploadedFaithfully .sample "gw" [lastTime,⟨3,"node",0,"{}"⟩] (Service.start Database.empty) t := by
  obtain ⟨t,hr,hiff⟩ := uploaded_iff_representable .sample (Service.start Database.empty) 0 "gw"
    [lastTime,⟨3,"node",0,"{}"⟩] (List.replicate 3 .success) rfl rfl (by decide)
    ⟨by decide,by decide,by decide⟩
  exact ⟨t,hr,hiff.mpr (by decide)⟩

/-- The upload of a record with the highest uint64 time. -/
def uploadUnderflowed : List (Event String) :=
  upload 0 "gw" [underflowed,lastTime] (List.replicate 3 .success)

/-- The record is acceptable but not acknowledged; the next one is. -/
theorem upload_not_faithful :
    Acceptable "gw" (Database.empty : Database String) [underflowed,lastTime] ∧
    ∃ t,run (step .sample) (Service.start Database.empty) uploadUnderflowed=some t ∧
      t.returned=[(.uploadTelemetry "gw" [underflowed,lastTime],.uploadTelemetry [2])] ∧
      ¬UploadedFaithfully .sample "gw" [underflowed,lastTime] (Service.start Database.empty) t := by
  refine ⟨⟨by decide,by decide,by decide⟩,
    (run (step .sample) (Service.start Database.empty) uploadUnderflowed).get (by decide),
    (Option.some_get _).symm,by decide,fun h => ?_⟩
  exact absurd h.1 (by decide)

end Greenhouse.CloudTelemetryRange
