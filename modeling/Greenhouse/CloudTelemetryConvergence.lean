import Greenhouse.CloudTelemetryUpload

/-!
# Convergence of telemetry uploads

Whether the INSERT of a record succeeds depends on the record and on its own
statement only. When no gateway uses one local id for two contents, the stored
contents are the initial ones and those of the successful INSERTs, whatever
the batches, their order and their repetitions, and every response lists the
records of its batch whose own INSERT has succeeded.
-/

namespace Greenhouse.CloudTelemetryConvergence

open KeyedTable CloudDatabase CloudHandlers CloudService TemporalRuns CloudTelemetryUpload

variable {J : Type}

/-- An executed INSERT of an upload. -/
structure Attempt where
  /-- Number of the call. -/
  number : ℕ
  gatewayId : String
  record : TelemetryRecord
  outcome : Outcome

/-- Whether the INSERT of an attempt succeeds. -/
def Attempt.succeeds (json : Jsonb J) (a : Attempt) : Bool :=
  !a.outcome.fails && (telemetryRow json a.outcome.now a.gatewayId a.record).isSome

/-- The columns of a telemetry row that an upload determines. -/
def content (row : TelemetryRow J) : String×Int64×String×Int64×J :=
  (row.gatewayId,row.localId,row.deviceId,row.timestampMs,row.payload)

/-- The stored contents. -/
def contents (db : Database J) : List (String×Int64×String×Int64×J) :=
  db.telemetry.rows.map content

/-- The content a record of a gateway is stored with, none when it is refused. -/
def recordContent (json : Jsonb J) (p : String×TelemetryRecord) :
    Option (String×Int64×String×Int64×J) :=
  (telemetryRow json 0 p.1 p.2).map content

/-- A call that starts and an INSERT are logged. -/
def logged (s : Service J) : Event J → Service J → List (ℕ⊕Attempt)
  | .request i _,_ => [.inl i]
  | .statement i o,_ =>
    match s.calls i with
    | none => []
    | some c =>
      match c.frame.next with
      | .inl (.insertTelemetry gatewayId record) => [.inr ⟨i,gatewayId,record,o⟩]
      | _ => []
  | _,_ => []

/-- The log of a run. -/
def uploadLog (json : Jsonb J) : Service J → List (Event J) → List (ℕ⊕Attempt) :=
  observe (step json) logged

/-- The gateways and records whose INSERT has succeeded. -/
def insertedPairs (json : Jsonb J) (log : List (ℕ⊕Attempt)) : List (String×TelemetryRecord) :=
  log.filterMap fun
    | .inl _ => none
    | .inr a => if a.succeeds json=true then some (a.gatewayId,a.record) else none

/-- The INSERTs of the last call with a number. -/
def attemptsOf (i : ℕ) (log : List (ℕ⊕Attempt)) : List Attempt :=
  log.foldl (fun attempts x =>
    match x with
    | .inl j => if j=i then [] else attempts
    | .inr a => if a.number=i then attempts++[a] else attempts) []

/-- No gateway uses one local id for two contents, stored rows included. -/
def UsesIdsOnce (json : Jsonb J) (db : Database J) (pairs : List (String×TelemetryRecord)) : Prop :=
  (∀ p∈pairs,∀ q∈pairs,p.1=q.1 → p.2.localId=q.2.localId →
    recordContent json p=recordContent json q) ∧
  ∀ p∈pairs,∀ row∈db.telemetry.rows,row.key=(p.1,p.2.localId) →
    recordContent json p=some (content row)

/-- Every call that is about to answer has tried each record of its batch in
turn, and lists those whose own INSERT has succeeded. -/
def AnswersOwnInserts (json : Jsonb J) (log : List (ℕ⊕Attempt)) (s : Service J) : Prop :=
  ∀ i c response,s.calls i=some c → c.frame.next=.inr response →
    (attemptsOf i log).map Attempt.record=c.request.records ∧
      response.acceptedLocalIds=
        ((attemptsOf i log).filter (Attempt.succeeds json)).map fun a => a.record.localId

variable {json : Jsonb J} {s t : Service J} {e : Event J}

/-- The database does not matter for the success of an INSERT. -/
theorem isSome_exec_insertTelemetry (i : ℕ) (o : Outcome) (db : Database J) (gatewayId : String)
    (record : TelemetryRecord) :
    (Statement.exec json o db (.insertTelemetry gatewayId record)).isSome=
      Attempt.succeeds json ⟨i,gatewayId,record,o⟩ := by
  dsimp only [Statement.exec,Attempt.succeeds]
  cases o.fails
  · simp only [Bool.false_eq_true,if_false,Option.isSome_map,Bool.not_false,Bool.true_and]
  · rfl

/-- The time of arrival is not part of the content. -/
theorem recordContent_of_telemetryRow {now : Timestamp} {gatewayId : String}
    {record : TelemetryRecord} {row : TelemetryRow J}
    (h : telemetryRow json now gatewayId record=some row) :
    recordContent json (gatewayId,record)=some (content row) := by
  obtain ⟨hok,timestampMs,payload,ht,hp,rfl⟩ := telemetryRow_eq_some.mp h
  have hrow : telemetryRow json 0 gatewayId record=
      some ⟨gatewayId,record.deviceId,record.localId,timestampMs,payload,some 0⟩ :=
    telemetryRow_eq_some.mpr ⟨hok,timestampMs,payload,ht,hp,rfl⟩
  rw [recordContent,hrow]
  rfl

/-- The key is part of the content. -/
theorem key_of_recordContent {p : String×TelemetryRecord} {row : TelemetryRow J}
    (h : recordContent json p=some (content row)) : row.key=(p.1,p.2.localId) := by
  obtain ⟨row',hrow',he⟩ := Option.map_eq_some_iff.mp h
  rw [←(carries_telemetryRow hrow').1]
  simp only [content,Prod.mk.injEq] at he
  exact Prod.ext he.1.symm he.2.1.symm

theorem insertedPairs_append (xs ys : List (ℕ⊕Attempt)) :
    insertedPairs json (xs++ys)=insertedPairs json xs++insertedPairs json ys :=
  List.filterMap_append

theorem UsesIdsOnce.of_append {db : Database J} {ps qs : List (String×TelemetryRecord)}
    (h : UsesIdsOnce json db (ps++qs)) : UsesIdsOnce json db ps :=
  ⟨fun p hp q hq => h.1 p (List.mem_append_left _ hp) q (List.mem_append_left _ hq),
    fun p hp => h.2 p (List.mem_append_left _ hp)⟩

/-- A statement that is no INSERT of telemetry is not logged. -/
theorem logged_of_not {i : ℕ} {o : Outcome} {c : Call} {st : Statement} (hc : s.calls i=some c)
    (hn : c.frame.next=.inl st) (h : ∀ gatewayId record,st≠.insertTelemetry gatewayId record) :
    logged s (.statement i o) t=[] := by
  cases st with
  | insertTelemetry gatewayId record => exact absurd rfl (h gatewayId record)
  | _ => simp only [logged,hc,hn]

/-- An INSERT of telemetry is logged with its parameters. -/
theorem logged_insert {i : ℕ} {o : Outcome} {c : Call} {gatewayId : String}
    {record : TelemetryRecord} (hc : s.calls i=some c)
    (hn : c.frame.next=.inl (.insertTelemetry gatewayId record)) :
    logged s (.statement i o) t=[.inr ⟨i,gatewayId,record,o⟩] := by
  simp only [logged,hc,hn]

/-- A step offers the row of the one pair it logs as inserted, or leaves the
telemetry alone and inserts no pair. -/
theorem telemetry_step (hs : step json s e=some t) :
    (insertedPairs json (logged s e t)=[] ∧ t.db.telemetry=s.db.telemetry) ∨
    ∃ p row,insertedPairs json (logged s e t)=[p] ∧ recordContent json p=some (content row) ∧
      t.db.telemetry=s.db.telemetry.insertIgnore row := by
  cases step_transition hs with
  | @fails i o c st call next exec =>
    refine Or.inl ⟨?_,rfl⟩
    by_cases h : ∃ gatewayId record,st=.insertTelemetry gatewayId record
    · obtain ⟨gatewayId,record,rfl⟩ := h
      have hf : Attempt.succeeds json ⟨i,gatewayId,record,o⟩=false := by
        rw [←isSome_exec_insertTelemetry i o s.db gatewayId record,exec]
        rfl
      rw [logged_insert call next]
      simp only [insertedPairs,List.filterMap_cons,hf,Bool.false_eq_true,if_false,
        List.filterMap_nil]
    · rw [logged_of_not call next fun gatewayId record he => h ⟨gatewayId,record,he⟩]
      rfl
  | @executes i o c st db rows call next exec =>
    rcases exec_telemetry exec with ⟨gatewayId,record,row,rfl,hrow,ht⟩|⟨ht,hn⟩
    · have hf : Attempt.succeeds json ⟨i,gatewayId,record,o⟩=true := by
        rw [←isSome_exec_insertTelemetry i o s.db gatewayId record,exec]
        rfl
      refine Or.inr ⟨(gatewayId,record),row,?_,recordContent_of_telemetryRow hrow,ht⟩
      rw [logged_insert call next]
      simp only [insertedPairs,List.filterMap_cons,hf,if_true,List.filterMap_nil]
    · refine Or.inl ⟨?_,ht⟩
      rw [logged_of_not call next hn]
      rfl
  | request | reply | receive | abort | insertCommand => exact Or.inl ⟨rfl,rfl⟩

/-- The stored contents are the initial ones and those of the inserted pairs. -/
def StoresInserted (json : Jsonb J) (db : Database J) (s : Service J)
    (log : List (ℕ⊕Attempt)) : Prop :=
  UsesIdsOnce json db (insertedPairs json log) → ∀ x,x∈contents s.db ↔
    x∈contents db ∨ ∃ p∈insertedPairs json log,recordContent json p=some x

/-- One step adds to the stored contents what it inserts. -/
theorem StoresInserted.step {db : Database J} {log : List (ℕ⊕Attempt)}
    (h : StoresInserted json db s log) (hs : step json s e=some t) :
    StoresInserted json db t (log++logged s e t) := by
  intro hids x
  rw [insertedPairs_append] at hids ⊢
  have hold := h hids.of_append
  rcases telemetry_step hs with ⟨hp,ht⟩|⟨p,row,hp,hrow,ht⟩
  · rw [hp,List.append_nil,contents,ht]
    exact hold x
  · rw [hp] at hids ⊢
    have hkey := key_of_recordContent hrow
    have hsame : ∀ a∈s.db.telemetry.rows,a.key=row.key → content a=content row := by
      intro a ha hk
      rcases (hold (content a)).mp (List.mem_map_of_mem ha) with hin|⟨q,hq,hqa⟩
      · obtain ⟨b,hb,he⟩ := List.mem_map.mp hin
        have hbk : b.key=(p.1,p.2.localId) := by
          rw [←hkey,←hk]
          simp only [content,Prod.mk.injEq] at he
          exact Prod.ext he.1 he.2.1
        have hpb := hids.2 p (List.mem_append_right _ (List.mem_singleton_self p)) b hb hbk
        rw [←he]
        exact Option.some.inj (hpb.symm.trans hrow)
      · have hqk := (key_of_recordContent hqa).symm.trans (hk.trans hkey)
        obtain ⟨hg,hl⟩ := Prod.mk.inj hqk
        have hqp := hids.1 q (List.mem_append_left _ hq) p
          (List.mem_append_right _ (List.mem_singleton_self p)) hg hl
        exact Option.some.inj (hqa.symm.trans (hqp.trans hrow))
    rw [contents,ht,Table.mem_map_insertIgnore hsame]
    have hx := hold x
    rw [contents] at hx
    rw [hx,or_assoc]
    refine or_congr_right ?_
    simp only [List.mem_append,List.mem_singleton,or_and_right,exists_or,exists_eq_left,hrow,
      Option.some.injEq,eq_comm (a:=x)]

theorem attemptsOf_append (i : ℕ) (xs : List (ℕ⊕Attempt)) (x : ℕ⊕Attempt) :
    attemptsOf i (xs++[x])=
      match x with
      | .inl j => if j=i then [] else attemptsOf i xs
      | .inr a => if a.number=i then attemptsOf i xs++[a] else attemptsOf i xs := by
  rw [attemptsOf,List.foldl_append]
  rfl

/-- Every call has tried the records before the remaining ones, and has
accepted those whose INSERT has succeeded. -/
def TriesInTurn (json : Jsonb J) (s : Service J) (log : List (ℕ⊕Attempt)) : Prop :=
  ∀ i c,s.calls i=some c →
    (attemptsOf i log).map Attempt.record++c.frame.remaining=c.request.records ∧
      c.frame.acceptedLocalIds=
        ((attemptsOf i log).filter (Attempt.succeeds json)).map fun a => a.record.localId

/-- Answering a statement keeps the account of the call. -/
theorem TriesInTurn.resume {i j : ℕ} {o : Outcome} {c d : Call} {st : Statement}
    {answer : Option (List (CommandRow J)×Fetch)} {log : List (ℕ⊕Attempt)}
    (h : TriesInTurn json s log) (hc : s.calls i=some c) (hn : c.frame.next=.inl st)
    (ha : answer.isSome=(st.exec json o s.db).isSome)
    (hd : setCall s.calls i (some (c.resume json answer)) j=some d) :
    (attemptsOf j (log++logged s (.statement i o) t)).map Attempt.record++d.frame.remaining=
        d.request.records ∧
      d.frame.acceptedLocalIds=((attemptsOf j (log++logged s (.statement i o) t)).filter
        (Attempt.succeeds json)).map fun a => a.record.localId := by
  rcases c.wellFormed.upload_resume json answer with
    ⟨hnot,hacc,hrem⟩|⟨gatewayId,record,todo,accepted,hf,hr⟩
  · have hlog : logged s (.statement i o) t=[] :=
      logged_of_not hc hn fun gatewayId record he => hnot gatewayId record (he ▸ hn)
    rw [hlog,List.append_nil]
    rcases setCall_eq_some.mp hd with ⟨rfl,he⟩|⟨_,hj⟩
    · obtain rfl := Option.some.inj he
      obtain ⟨htried,haccepted⟩ := h j c hc
      exact ⟨by rw [show (c.resume json answer).frame.remaining=c.frame.remaining from hrem]
                exact htried,hacc.trans haccepted⟩
    · exact h j d hj
  · have hnext : c.frame.next=.inl (.insertTelemetry gatewayId record) := by
      rw [hf]
      rfl
    obtain rfl := Sum.inl.inj (hn.symm.trans hnext)
    rw [logged_insert hc hnext,attemptsOf_append]
    dsimp only
    rcases setCall_eq_some.mp hd with ⟨rfl,he⟩|⟨hji,hj⟩
    · obtain rfl := Option.some.inj he
      obtain ⟨htried,haccepted⟩ := h j c hc
      rw [hf] at htried haccepted
      rw [if_pos rfl,List.map_append,List.filter_append]
      dsimp only [Call.resume]
      rw [hr]
      constructor
      · rw [List.append_assoc]
        exact htried
      · have hok : answer.isSome=Attempt.succeeds json ⟨j,gatewayId,record,o⟩ := by
          rw [ha,isSome_exec_insertTelemetry j]
        dsimp only [Frame.acceptedLocalIds] at haccepted ⊢
        rw [haccepted,hok,List.map_append,List.filter_singleton]
        cases Attempt.succeeds json ⟨j,gatewayId,record,o⟩
        · simp only [Bool.false_eq_true,if_false,cond_false,List.map_nil,List.append_nil]
        · simp only [if_true,cond_true,List.map_singleton]
    · rw [if_neg (Ne.symm hji)]
      exact h j d hj

/-- One step keeps the account of every call. -/
theorem TriesInTurn.step {log : List (ℕ⊕Attempt)} (h : TriesInTurn json s log)
    (hs : step json s e=some t) : TriesInTurn json t (log++logged s e t) := by
  intro j d hd
  cases step_transition hs with
  | request free =>
    dsimp only [logged]
    rw [attemptsOf_append]
    dsimp only
    rcases setCall_eq_some.mp hd with ⟨rfl,he⟩|⟨hji,hj⟩
    · obtain rfl := Option.some.inj he
      rw [if_pos rfl,acceptedLocalIds_start]
      exact ⟨remaining_handler _,rfl⟩
    · rw [if_neg (Ne.symm hji)]
      exact h j d hj
  | fails call next exec => exact h.resume call next (congrArg Option.isSome exec.symm) hd
  | executes call next exec => exact h.resume call next (congrArg Option.isSome exec.symm) hd
  | reply call next | abort call =>
    dsimp only [logged]
    rw [List.append_nil]
    rcases setCall_eq_some.mp hd with ⟨_,he⟩|⟨_,hj⟩
    · cases he
    · exact h j d hj
  | receive sent | insertCommand fresh =>
    dsimp only [logged]
    rw [List.append_nil]
    exact h j d hd

/-- What a run leaves behind is accounted for by its log. -/
theorem uploadLog_run (db : Database J) (es : List (Event J))
    (hr : run (step json) (Service.start db) es=some t) :
    StoresInserted json db t (uploadLog json (Service.start db) es) ∧
      TriesInTurn json t (uploadLog json (Service.start db) es) := by
  refine observe_invariant (J:=fun s log => StoresInserted json db s log ∧ TriesInTurn json s log)
    (G:=fun _ _ _ => True) [] (fun s e u log h _ hs => ⟨h.1.step hs,h.2.step hs⟩) ⟨?_,nofun⟩
    (EachStep.trivial _ _) hr
  intro _ x
  refine ⟨Or.inl,fun h => h.elim id ?_⟩
  rintro ⟨p,hp,_⟩
  exact absurd hp List.not_mem_nil

/-- A call that is about to answer has tried its whole batch. -/
theorem TriesInTurn.answersOwnInserts {log : List (ℕ⊕Attempt)} (h : TriesInTurn json s log) :
    AnswersOwnInserts json log s := by
  intro i c response hc hn
  obtain ⟨htried,haccepted⟩ := h i c hc
  rw [c.wellFormed.remaining_next hn,List.append_nil] at htried
  exact ⟨htried,(c.wellFormed.acceptedLocalIds_next hn).trans haccepted⟩

/-- Two runs whose INSERTs have succeeded for the same pairs store the same
contents, each once, namely the initial ones and those of the pairs; and every
answer lists the records whose own INSERT has succeeded. -/
theorem uploads_converge (json : Jsonb J) (db : Database J) (es₁ es₂ : List (Event J))
    (t₁ t₂ : Service J) (h₁ : run (step json) (Service.start db) es₁=some t₁)
    (h₂ : run (step json) (Service.start db) es₂=some t₂)
    (hsame : ∀ p,p∈insertedPairs json (uploadLog json (Service.start db) es₁) ↔
      p∈insertedPairs json (uploadLog json (Service.start db) es₂))
    (hids : UsesIdsOnce json db (insertedPairs json (uploadLog json (Service.start db) es₁))) :
    (∀ x,x∈contents t₁.db ↔ x∈contents t₂.db) ∧
      (contents t₁.db).Nodup ∧ (contents t₂.db).Nodup ∧
      (∀ x,x∈contents t₁.db ↔ x∈contents db ∨
        ∃ p∈insertedPairs json (uploadLog json (Service.start db) es₁),recordContent json p=some x) ∧
      AnswersOwnInserts json (uploadLog json (Service.start db) es₁) t₁ ∧
      AnswersOwnInserts json (uploadLog json (Service.start db) es₂) t₂ := by
  obtain ⟨hstored₁,htries₁⟩ := uploadLog_run db es₁ h₁
  obtain ⟨hstored₂,htries₂⟩ := uploadLog_run db es₂ h₂
  have hids₂ : UsesIdsOnce json db (insertedPairs json (uploadLog json (Service.start db) es₂)) :=
    ⟨fun p hp q hq => hids.1 p ((hsame p).mpr hp) q ((hsame q).mpr hq),
      fun p hp => hids.2 p ((hsame p).mpr hp)⟩
  have hkey : ∀ a b : TelemetryRow J,content a=content b → a.key=b.key := by
    intro a b h
    simp only [content,Prod.mk.injEq] at h
    exact Prod.ext h.1 h.2.1
  refine ⟨fun x => ?_,t₁.db.telemetry.nodup_map hkey,t₂.db.telemetry.nodup_map hkey,hstored₁ hids,
    htries₁.answersOwnInserts,htries₂.answersOwnInserts⟩
  rw [hstored₁ hids x,hstored₂ hids₂ x]
  refine or_congr_right (exists_congr fun p => and_congr_left fun _ => hsame p)

/-- Two records in one batch. -/
def batchedRun : List (Event String) :=
  [.request 0 (.uploadTelemetry "gw" [⟨0,"dev",1,"0"⟩,⟨1,"dev",2,"1"⟩]),.statement 0 .success,
    .statement 0 .success,.statement 0 .success,.reply 0]

/-- The same records in two overlapping batches, with a failure and a repetition. -/
def retriedRun : List (Event String) :=
  [.request 0 (.uploadTelemetry "gw" [⟨1,"dev",2,"1"⟩,⟨0,"dev",1,"0"⟩]),
    .request 1 (.uploadTelemetry "gw" [⟨0,"dev",1,"0"⟩]),.statement 0 .failure,
    .statement 1 .success,.statement 0 .success,.statement 1 .success,.statement 0 .failure,
    .reply 1,.reply 0,.request 0 (.uploadTelemetry "gw" [⟨0,"dev",1,"0"⟩]),.statement 0 .success,
    .statement 0 .success]

/-- The two runs store the same contents. -/
theorem uploads_converge_retriedRun :
    ∃ t₁ t₂,run (step .sample) (Service.start Database.empty) batchedRun=some t₁ ∧
      run (step .sample) (Service.start Database.empty) retriedRun=some t₂ ∧
      ∀ x,x∈contents t₁.db ↔ x∈contents t₂.db := by
  have hsub : ∀ p∈insertedPairs .sample (uploadLog .sample (Service.start Database.empty) batchedRun),
      p∈insertedPairs .sample (uploadLog .sample (Service.start Database.empty) retriedRun) := by
    decide
  have hsup : ∀ p∈insertedPairs .sample (uploadLog .sample (Service.start Database.empty) retriedRun),
      p∈insertedPairs .sample (uploadLog .sample (Service.start Database.empty) batchedRun) := by
    decide
  exact ⟨_,_,rfl,rfl,(uploads_converge .sample Database.empty batchedRun retriedRun _ _ rfl rfl
    (fun p => ⟨hsub p,hsup p⟩) ⟨by decide,fun _ _ _ hrow => absurd hrow List.not_mem_nil⟩).1⟩

end Greenhouse.CloudTelemetryConvergence
