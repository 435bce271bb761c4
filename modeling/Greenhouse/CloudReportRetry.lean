import Greenhouse.CloudCommandDelivery
import Greenhouse.CloudReportAcceptance

/-!
# Retried health and OTA reports

A gateway repeats a report until a response with accepted=true arrives. Health
and OTA reports are plain inserts without a key, so every attempt whose INSERT
takes effect leaves a row, whether or not its response arrives. The rows stored
are those of the effective inserts, in order.
-/

namespace Greenhouse.CloudReportRetry

open CloudDatabase CloudHandlers CloudService CloudCommandDelivery CloudReportAcceptance
  TemporalRuns

variable {J : Type}

/-- The requests that carry a health or an OTA report. -/
def isReport : Request → Bool
  | .reportHealth _ _ => true
  | .reportOtaStatus _ _ _ _ _ => true
  | _ => false

/-- The inserts of reports. -/
def isInsert : Statement → Bool
  | .insertHealthReport _ _ => true
  | .insertOtaResult _ _ _ _ _ => true
  | _ => false

/-- The service together with the reports that its gateways have issued. -/
structure Client (J : Type) where
  service : Service J
  /-- The logical reports, in the order of issue. -/
  reports : List Request
  /-- The report that a call in progress carries. -/
  attempts : ℕ → Option ℕ
  /-- The responses to attempts that have been sent. -/
  answered : List (ℕ×Response)
  /-- The reports for which accepted=true has arrived. -/
  acked : List ℕ
  /-- The reports whose INSERT has taken effect, once for each time. -/
  recorded : List ℕ

/-- No report has been issued. -/
def Client.start (db : Database J) : Client J := ⟨Service.start db,[],fun _ => none,[],[],[]⟩

/-- The steps of the gateways and of the service. -/
inductive ClientEvent (J : Type)
  /-- A new report is issued. -/
  | issue (req : Request)
  /-- A report is sent, for the first time or again, as the call with a number. -/
  | attempt (i k : ℕ)
  /-- A response to an attempt arrives. -/
  | receive (k : ℕ) (response : Response)
  /-- A step of the service or a request that carries no report. -/
  | serve (e : Event J)

/-- Whether an event is the arrival of a report. -/
def carriesReport : Event J → Bool
  | .request _ req => isReport req
  | _ => false

/-- The calls in progress after an event. -/
def attemptsAfter (attempts : ℕ → Option ℕ) : Event J → ℕ → Option ℕ
  | .reply i => fun j => if j=i then none else attempts j
  | .abort i => fun j => if j=i then none else attempts j
  | _ => attempts

/-- The response to an attempt that an event sends. -/
def Client.answers (c : Client J) : Event J → List (ℕ×Response)
  | .reply i =>
    match c.service.calls i,c.attempts i with
    | some d,some k =>
      match d.frame.next with
      | .inr response => [(k,response)]
      | .inl _ => []
    | _,_ => []
  | _ => []

/-- The report whose INSERT an event executes. -/
def Client.inserts (json : Jsonb J) (c : Client J) : ClientEvent J → List ℕ
  | .serve (.statement i o) =>
    match c.service.calls i with
    | some d =>
      match d.frame.next with
      | .inl st =>
        if (isInsert st && (st.exec json o c.service.db).isSome)=true then (c.attempts i).toList else []
      | .inr _ => []
    | none => []
  | _ => []

/-- One step; a report is not sent again after accepted=true has arrived. -/
def Client.step (json : Jsonb J) (c : Client J) : ClientEvent J → Option (Client J)
  | .issue req => if isReport req=true then some {c with reports := c.reports++[req]} else none
  | .attempt i k =>
    if k∈c.acked then none
    else (c.reports[k]?).bind fun req => (CloudService.step json c.service (.request i req)).map fun s =>
      {c with service := s,attempts := fun j => if j=i then some k else c.attempts j}
  | .receive k response =>
    if (k,response)∈c.answered then
      some {c with acked := if accepted response=true then c.acked++[k] else c.acked}
    else none
  | .serve e =>
    if carriesReport e=true then none
    else (CloudService.step json c.service e).map fun s =>
      {c with
        service := s
        attempts := attemptsAfter c.attempts e
        answered := c.answered++c.answers e
        recorded := c.recorded++c.inserts json (.serve e)}

/-- The columns of a health report that its request determines. -/
def healthContent (json : Jsonb J) : Request → Option (String×J)
  | .reportHealth gatewayId payloadJson => (json.parse payloadJson).map fun payload => (gatewayId,payload)
  | _ => none

/-- The columns of an OTA result that its request determines. -/
def otaContent : Request → Option (String×Option String×Option String×String×Option String)
  | .reportOtaStatus gatewayId updateId targetVersion status detail =>
    some (gatewayId,some updateId,some targetVersion,status,some detail)
  | _ => none

/-- The stored health reports, without their times. -/
def healthContents (db : Database J) : List (String×J) :=
  db.healthReports.map fun r => (r.gatewayId,r.payload)

/-- The stored OTA results, without their times. -/
def otaContents (db : Database J) :
    List (String×Option String×Option String×String×Option String) :=
  db.otaResults.map fun r => (r.gatewayId,r.updateId,r.targetVersion,r.status,r.detail)

/-- The rows added to the two tables are those of the recorded reports, one for
each time a report has been recorded, in that order. -/
def RowsOfRecorded (json : Jsonb J) (db : Database J) (c : Client J) : Prop :=
  healthContents c.service.db=
    healthContents db++c.recorded.filterMap (fun k => (c.reports[k]?).bind (healthContent json)) ∧
  otaContents c.service.db=
    otaContents db++c.recorded.filterMap (fun k => (c.reports[k]?).bind otaContent)

/-- Every acknowledged report has been recorded once. -/
def ExactlyOnce (c : Client J) : Prop := ∀ k∈c.acked,c.recorded.count k=1

/-- Whenever the INSERT of one of some reports takes effect, no INSERT of the
same report has taken effect before. -/
def InsertsOnce (json : Jsonb J) (reports : List ℕ) (c : Client J) (e : ClientEvent J)
    (_ : Client J) : Prop :=
  ∀ k,k∈reports → k∈c.inserts json e → k∉c.recorded

variable {json : Jsonb J} {db : Database J} {c t : Client J} {e : ClientEvent J}

/-- The recorded reports after a step. -/
theorem recorded_step (h : c.step json e=some t) : t.recorded=c.recorded++c.inserts json e := by
  cases e with
  | issue req =>
    obtain ⟨_,ht⟩ := Option.ite_none_right_eq_some.mp h
    cases ht
    exact (List.append_nil _).symm
  | attempt i k =>
    obtain ⟨_,ht⟩ := Option.ite_none_left_eq_some.mp h
    obtain ⟨_,_,ht⟩ := Option.bind_eq_some_iff.mp ht
    obtain ⟨_,_,rfl⟩ := Option.map_eq_some_iff.mp ht
    exact (List.append_nil _).symm
  | receive k response =>
    obtain ⟨_,ht⟩ := Option.ite_none_right_eq_some.mp h
    cases ht
    exact (List.append_nil _).symm
  | serve e =>
    obtain ⟨_,ht⟩ := Option.ite_none_left_eq_some.mp h
    obtain ⟨_,_,rfl⟩ := Option.map_eq_some_iff.mp ht
    rfl

/-- One step records at most one report. -/
theorem count_inserts_le (json : Jsonb J) (c : Client J) (e : ClientEvent J) (k : ℕ) : (c.inserts json e).count k≤1 := by
  have hone : ∀ o : Option ℕ,o.toList.count k≤1 := by
    intro o
    cases o with
    | none => exact Nat.zero_le 1
    | some j => exact List.count_le_length
  cases e with
  | serve e =>
    cases e with
    | statement i o =>
      dsimp only [Client.inserts]
      split
      · split
        · split
          · exact hone _
          · exact Nat.zero_le 1
        · exact Nat.zero_le 1
      · exact Nat.zero_le 1
    | _ => exact Nat.zero_le 1
  | _ => exact Nat.zero_le 1

/-- What is recorded stays recorded. -/
theorem count_recorded_le {es : List (ClientEvent J)} (k : ℕ)
    (h : run (Client.step json) c es=some t) : c.recorded.count k≤t.recorded.count k := by
  induction es generalizing c with
  | nil =>
    cases h
    exact le_rfl
  | cons e es ih =>
    obtain ⟨u,hu,hr⟩ := run_cons.mp h
    have hmore := ih hr
    rw [recorded_step hu,List.count_append] at hmore
    omega

/-- A report is recorded at most once exactly when none of its inserts takes
effect after another one. -/
theorem count_le_one_iff {es : List (ClientEvent J)} (k : ℕ) (hc : c.recorded.count k≤1)
    (h : run (Client.step json) c es=some t) : t.recorded.count k≤1 ↔
      EachStep (Client.step json) (fun c e _ => k∈c.inserts json e → k∉c.recorded) c es := by
  induction es generalizing c with
  | nil =>
    cases h
    exact iff_of_true hc trivial
  | cons e es ih =>
    obtain ⟨u,hu,hr⟩ := run_cons.mp h
    have hcount : u.recorded.count k=c.recorded.count k+(c.inserts json e).count k := by
      rw [recorded_step hu,List.count_append]
    by_cases hagain : k∈c.inserts json e ∧ k∈c.recorded
    · have hfirst := List.count_pos_iff.mpr hagain.2
      have hsecond := List.count_pos_iff.mpr hagain.1
      have hmore := count_recorded_le k hr
      refine iff_of_false (by omega) fun hall => ?_
      exact (hall u hu).1 hagain.1 hagain.2
    · have hnew : k∈c.inserts json e → k∉c.recorded := fun hi hk => hagain ⟨hi,hk⟩
      have hone : u.recorded.count k≤1 := by
        by_cases hi : k∈c.inserts json e
        · have hzero := List.count_eq_zero.mpr (hnew hi)
          have hle := count_inserts_le json c e k
          omega
        · have hzero := List.count_eq_zero.mpr hi
          omega
      rw [ih hone hr]
      constructor
      · intro hrest v hv
        rw [hu,Option.some.injEq] at hv
        exact hv ▸ ⟨hnew,hrest⟩
      · exact fun hall => (hall u hu).2

section Statements

variable {o : Outcome} {before after : Database J} {rows : List (CommandRow J)} {st : Statement}
  {req : Request} {f : Frame}

/-- Only the write of a report inserts one. -/
theorem write_of_insert (h : FrameOf req f) (hn : f.next=.inl st) (hi : isInsert st=true) :
    writeOf req=some st ∧ isReport req=true := by
  cases h with
  | start =>
    cases req <;> cases hn <;> cases hi
  | recordResult =>
    cases hn
    cases hi
  | insertHealthReport | insertOtaResult =>
    cases hn
    exact ⟨rfl,rfl⟩
  | insertRecords gatewayId done todo accepted =>
    cases todo <;> cases hn
    cases hi
  | selectCommands =>
    cases hn
    cases hi
  | markCommands gatewayId cursor todo commands hs =>
    cases todo <;> cases hn
    cases hi
  | returned => cases hn

/-- The write of a report is an insert. -/
theorem insert_of_write (hw : writeOf req=some st) (hq : isReport req=true) : isInsert st=true := by
  cases req with
  | reportHealth | reportOtaStatus =>
    cases hw
    rfl
  | _ => cases hq

/-- What the write of a report adds to the two tables. -/
theorem contents_of_insert (hw : writeOf req=some st) (hq : isReport req=true)
    (hx : st.exec json o before=some (after,rows)) :
    healthContents after=healthContents before++(healthContent json req).toList ∧
      otaContents after=otaContents before++(otaContent req).toList := by
  cases req with
  | reportHealth gatewayId payloadJson =>
    cases hw
    simp only [Statement.exec,Option.ite_none_right_eq_some,Option.map_eq_some_iff,
      Prod.mk.injEq] at hx
    obtain ⟨_,payload,hp,rfl,_⟩ := hx
    refine ⟨?_,(List.append_nil _).symm⟩
    rw [healthContents,List.map_append,healthContent,hp]
    rfl
  | reportOtaStatus gatewayId updateId targetVersion status detail =>
    cases hw
    simp only [Statement.exec,Option.ite_none_right_eq_some,Option.some.injEq,Prod.mk.injEq] at hx
    obtain ⟨_,rfl,_⟩ := hx
    refine ⟨(List.append_nil _).symm,?_⟩
    rw [otaContents,List.map_append]
    rfl
  | _ => cases hq

/-- Other statements leave the two tables alone. -/
theorem reports_of_not_insert (hi : isInsert st=false)
    (hx : st.exec json o before=some (after,rows)) :
    after.healthReports=before.healthReports ∧ after.otaResults=before.otaResults := by
  cases st with
  | insertHealthReport | insertOtaResult => cases hi
  | insertTelemetry gatewayId record =>
    simp only [Statement.exec,Option.ite_none_left_eq_some,Option.map_eq_some_iff,
      Prod.mk.injEq] at hx
    obtain ⟨_,_,_,rfl,_⟩ := hx
    exact ⟨rfl,rfl⟩
  | recordResult =>
    simp only [Statement.exec,Option.ite_none_right_eq_some,Option.map_eq_some_iff,
      Prod.mk.injEq] at hx
    obtain ⟨_,_,_,rfl,_⟩ := hx
    exact ⟨rfl,rfl⟩
  | upsertGateway | touchGateway | selectPending | markDelivered =>
    simp only [Statement.exec,Option.ite_none_right_eq_some,Option.some.injEq,Prod.mk.injEq] at hx
    obtain ⟨_,rfl,_⟩ := hx
    exact ⟨rfl,rfl⟩

end Statements

/-- The invariant: calls in progress carry issued reports, whatever is accepted
has been recorded, and the rows are those of the recorded reports. -/
structure Kept (json : Jsonb J) (db : Database J) (c : Client J) : Prop where
  reports : ∀ req∈c.reports,isReport req=true
  carried : ∀ i d,c.service.calls i=some d → isReport d.request=true → ∃ k,c.attempts i=some k
  attempts : ∀ i k,c.attempts i=some k →
    ∃ d,c.service.calls i=some d ∧ c.reports[k]?=some d.request ∧ isReport d.request=true
  returning : ∀ i k d response,c.attempts i=some k → c.service.calls i=some d →
    d.frame.next=.inr response → accepted response=true → k∈c.recorded
  answered : ∀ k response,(k,response)∈c.answered → accepted response=true → k∈c.recorded
  acked : ∀ k∈c.acked,k∈c.recorded
  issued : ∀ k∈c.recorded,k<c.reports.length
  rows : RowsOfRecorded json db c

theorem kept_start (db : Database J) : Kept json db (Client.start db) where
  reports := nofun
  carried := nofun
  attempts := nofun
  returning := nofun
  answered := nofun
  acked := nofun
  issued := nofun
  rows := ⟨(List.append_nil _).symm,(List.append_nil _).symm⟩

/-- A new report keeps the invariant. -/
theorem Kept.issue {req : Request} (h : Kept json db c) (hq : isReport req=true) :
    Kept json db {c with reports := c.reports++[req]} := by
  have hold : ∀ {k},k<c.reports.length → (c.reports++[req])[k]?=c.reports[k]? :=
    fun hk => List.getElem?_append_left hk
  refine ⟨?_,h.carried,?_,h.returning,h.answered,h.acked,?_,?_⟩
  · intro r hr
    rcases List.mem_append.mp hr with hr|hr
    · exact h.reports r hr
    · rw [List.mem_singleton.mp hr]
      exact hq
  · intro i k hk
    obtain ⟨d,hd,hr,hq'⟩ := h.attempts i k hk
    obtain ⟨hlt,_⟩ := List.getElem?_eq_some_iff.mp hr
    exact ⟨d,hd,(hold hlt).trans hr,hq'⟩
  · intro k hk
    dsimp only
    rw [List.length_append]
    exact Nat.lt_add_right _ (h.issued k hk)
  · obtain ⟨hhealth,hota⟩ := h.rows
    have hsame : ∀ {β : Type} (content : Request → Option β),
        c.recorded.filterMap (fun k => ((c.reports++[req])[k]?).bind content)=
          c.recorded.filterMap fun k => (c.reports[k]?).bind content :=
      fun content => List.filterMap_congr fun k hk => by rw [hold (h.issued k hk)]
    refine ⟨?_,?_⟩
    · dsimp only
      rw [hsame]
      exact hhealth
    · dsimp only
      rw [hsame]
      exact hota

/-- Sending a report keeps the invariant. -/
theorem Kept.attempt {i k : ℕ} {req : Request} {s : Service J} (h : Kept json db c)
    (hk : c.reports[k]?=some req) (hs : CloudService.step json c.service (.request i req)=some s) :
    Kept json db
      {c with service := s,attempts := fun j => if j=i then some k else c.attempts j} := by
  have hq : isReport req=true := h.reports req (List.mem_of_getElem? hk)
  cases step_transition hs with
  | request free =>
    refine ⟨h.reports,?_,?_,?_,h.answered,h.acked,h.issued,h.rows⟩
    · intro j d hd hr
      by_cases hj : j=i
      · exact ⟨k,if_pos hj⟩
      · obtain ⟨k',hk'⟩ := h.carried j d ((setCall_of_ne hj).symm.trans hd) hr
        exact ⟨k',(if_neg hj).trans hk'⟩
    · intro j k' hk'
      by_cases hj : j=i
      · obtain rfl : k=k' := Option.some.inj ((if_pos hj).symm.trans hk')
        exact ⟨_,by rw [hj]; exact setCall_self _ _ _,hk,hq⟩
      · obtain ⟨d,hd,hr,hq'⟩ := h.attempts j k' ((if_neg hj).symm.trans hk')
        exact ⟨d,(setCall_of_ne hj).trans hd,hr,hq'⟩
    · intro j k' d response hk' hd hn ha
      by_cases hj : j=i
      · subst hj
        obtain rfl := Option.some.inj ((setCall_self _ _ _).symm.trans hd)
        cases req with
        | reportHealth | reportOtaStatus => cases hn
        | _ => cases hq
      · exact h.returning j k' d response ((if_neg hj).symm.trans hk')
          ((setCall_of_ne hj).symm.trans hd) hn ha

section Serve

variable {s : Service J} {ev : Event J} {i k : ℕ}

/-- The report that an INSERT records is the one of its call. -/
theorem mem_inserts (h : k∈c.inserts json (.serve ev)) : ∃ i o d st,ev=.statement i o ∧
    c.service.calls i=some d ∧ d.frame.next=.inl st ∧ isInsert st=true ∧ c.attempts i=some k := by
  cases ev with
  | statement i o =>
    cases hc : c.service.calls i with
    | none =>
      simp only [Client.inserts,hc] at h
      exact absurd h List.not_mem_nil
    | some d =>
      cases hn : d.frame.next with
      | inr response =>
        simp only [Client.inserts,hc,hn] at h
        exact absurd h List.not_mem_nil
      | inl st =>
        simp only [Client.inserts,hc,hn,List.mem_ite_nil_right,Bool.and_eq_true,
          Option.mem_toList] at h
        exact ⟨i,o,d,st,rfl,hc,hn,h.1.1,h.2⟩
  | _ => exact absurd h List.not_mem_nil

/-- A report that is executed is recorded by its call. -/
theorem inserts_executes {o : Outcome} {d : Call} {st : Statement} {after : Database J}
    {rows : List (CommandRow J)} (hc : c.service.calls i=some d) (hn : d.frame.next=.inl st)
    (hx : st.exec json o c.service.db=some (after,rows)) :
    c.inserts json (.serve (.statement i o))=
      if isInsert st=true then (c.attempts i).toList else [] := by
  simp only [Client.inserts,hc,hn,hx,Option.isSome_some,Bool.and_true]

/-- A response to an attempt is the one of its call. -/
theorem mem_answers {response : Response} (h : (k,response)∈c.answers ev) :
    ∃ i d,c.attempts i=some k ∧ c.service.calls i=some d ∧ d.frame.next=.inr response := by
  cases ev with
  | reply i =>
    cases hc : c.service.calls i with
    | none =>
      simp only [Client.answers,hc] at h
      exact absurd h List.not_mem_nil
    | some d =>
      cases ha : c.attempts i with
      | none =>
        simp only [Client.answers,hc,ha] at h
        exact absurd h List.not_mem_nil
      | some j =>
        cases hn : d.frame.next with
        | inl st =>
          simp only [Client.answers,hc,ha,hn] at h
          exact absurd h List.not_mem_nil
        | inr r =>
          simp only [Client.answers,hc,ha,hn,List.mem_singleton,Prod.mk.injEq] at h
          obtain ⟨rfl,rfl⟩ := h
          exact ⟨i,d,ha,hc,hn⟩
  | _ => exact absurd h List.not_mem_nil

/-- A call that is in progress after a step has kept its report. -/
theorem attemptsAfter_of_call (hs : CloudService.step json c.service ev=some s) {d : Call}
    (hd : s.calls i=some d) : attemptsAfter c.attempts ev i=c.attempts i := by
  cases step_transition hs with
  | @reply j c' response call next =>
    rcases setCall_eq_some.mp hd with ⟨_,he⟩|⟨hne,_⟩
    · cases he
    · exact if_neg hne
  | @abort j c' call =>
    rcases setCall_eq_some.mp hd with ⟨_,he⟩|⟨hne,_⟩
    · cases he
    · exact if_neg hne
  | request | fails | executes | receive | insertCommand => rfl

/-- An attempt that is in progress after an event was so before it. -/
theorem attempts_of_attemptsAfter {attempts : ℕ → Option ℕ}
    (hk : attemptsAfter attempts ev i=some k) : attempts i=some k := by
  cases ev with
  | reply j | abort j =>
    by_cases hj : i=j
    · cases (if_pos hj).symm.trans hk
    · exact (if_neg hj).symm.trans hk
  | _ => exact hk

/-- An attempt that is in progress after a step is still a call for its request. -/
theorem call_after (hs : CloudService.step json c.service ev=some s) {d : Call}
    (hd : c.service.calls i=some d) (hk : attemptsAfter c.attempts ev i=some k) :
    ∃ d',s.calls i=some d' ∧ d'.request=d.request := by
  have hsame : ∀ {j : ℕ} {d' : Option Call},j≠i → setCall c.service.calls j d' i=some d :=
    fun hj => (setCall_of_ne (Ne.symm hj)).trans hd
  cases step_transition hs with
  | @request j req free =>
    refine ⟨d,hsame ?_,rfl⟩
    rintro rfl
    rw [hd] at free
    cases free
  | @fails j o c' st call next exec =>
    by_cases hj : j=i
    · subst hj
      cases hd.symm.trans call
      exact ⟨_,setCall_self _ _ _,rfl⟩
    · exact ⟨d,hsame hj,rfl⟩
  | @executes j o c' st after rows call next exec =>
    by_cases hj : j=i
    · subst hj
      cases hd.symm.trans call
      exact ⟨_,setCall_self _ _ _,rfl⟩
    · exact ⟨d,hsame hj,rfl⟩
  | @reply j c' response call next =>
    by_cases hj : i=j
    · cases (if_pos hj).symm.trans hk
    · exact ⟨d,hsame (Ne.symm hj),rfl⟩
  | @abort j c' call =>
    by_cases hj : i=j
    · cases (if_pos hj).symm.trans hk
    · exact ⟨d,hsame (Ne.symm hj),rfl⟩
  | receive | insertCommand => exact ⟨d,hd,rfl⟩

/-- A step of the service adds the rows of what it records. -/
theorem Kept.rows_serve (h : Kept json db c) (hs : CloudService.step json c.service ev=some s) :
    RowsOfRecorded json db {c with
      service := s
      attempts := attemptsAfter c.attempts ev
      answered := c.answered++c.answers ev
      recorded := c.recorded++c.inserts json (.serve ev)} := by
  obtain ⟨hhealth,hota⟩ := h.rows
  have hkeep : c.inserts json (.serve ev)=[] → s.db.healthReports=c.service.db.healthReports →
      s.db.otaResults=c.service.db.otaResults →
      RowsOfRecorded json db {c with
        service := s
        attempts := attemptsAfter c.attempts ev
        answered := c.answered++c.answers ev
        recorded := c.recorded++c.inserts json (.serve ev)} := by
    intro hnone hh ho
    refine ⟨?_,?_⟩
    · dsimp only
      rw [hnone,List.append_nil,healthContents,hh]
      exact hhealth
    · dsimp only
      rw [hnone,List.append_nil,otaContents,ho]
      exact hota
  cases step_transition hs with
  | @fails i o d st call next exec =>
    refine hkeep ?_ rfl rfl
    simp only [Client.inserts,call,next,exec,Option.isSome_none,Bool.and_false,Bool.false_eq_true,
      if_false]
  | @executes i o d st after rows call next exec =>
    cases hi : isInsert st with
    | false =>
      obtain ⟨hh,ho⟩ := reports_of_not_insert hi exec
      refine hkeep ?_ hh ho
      rw [inserts_executes call next exec,hi,if_neg Bool.false_ne_true]
    | true =>
      obtain ⟨hw,hq⟩ := write_of_insert d.wellFormed next hi
      obtain ⟨k,hk⟩ := h.carried i d call hq
      obtain ⟨d',hd',hr,_⟩ := h.attempts i k hk
      cases call.symm.trans hd'
      obtain ⟨hh,ho⟩ := contents_of_insert hw hq exec
      have hinserts : c.inserts json (.serve (.statement i o))=[k] := by
        rw [inserts_executes call next exec,hi,if_pos rfl,hk]
        rfl
      have hone : ∀ {β : Type} (content : Request → Option β),
          [k].filterMap (fun j => (c.reports[j]?).bind content)=(content d.request).toList := by
        intro β content
        rw [List.filterMap_cons,List.filterMap_nil,hr,Option.bind_some]
        cases content d.request <;> rfl
      refine ⟨?_,?_⟩
      · dsimp only
        rw [hh,hhealth,hinserts,List.filterMap_append,hone,List.append_assoc]
      · dsimp only
        rw [ho,hota,hinserts,List.filterMap_append,hone,List.append_assoc]
  | request | reply | receive | abort | insertCommand => exact hkeep rfl rfl rfl

/-- After a step of the service, a report that is about to be accepted is recorded. -/
theorem Kept.returning_serve (h : Kept json db c)
    (hs : CloudService.step json c.service ev=some s) {d : Call} {response : Response}
    (hk : c.attempts i=some k) (hd : s.calls i=some d) (hn : d.frame.next=.inr response)
    (ha : accepted response=true) : k∈c.recorded++c.inserts json (.serve ev) := by
  obtain ⟨d₀,hd₀,_,hq⟩ := h.attempts i k hk
  have hold : c.service.calls i=some d → k∈c.recorded++c.inserts json (.serve ev) :=
    fun hc => List.mem_append_left _ (h.returning i k d response hk hc hn ha)
  cases step_transition hs with
  | @request j req free =>
    rcases setCall_eq_some.mp hd with ⟨rfl,_⟩|⟨_,hd⟩
    · rw [hd₀] at free
      cases free
    · exact hold hd
  | @fails j o d' st call next exec =>
    rcases setCall_eq_some.mp hd with ⟨rfl,he⟩|⟨_,hd⟩
    · obtain rfl := Option.some.inj he
      cases (write_of_accepted json d'.wellFormed next hn ha).2
    · exact hold hd
  | @executes j o d' st after rows call next exec =>
    rcases setCall_eq_some.mp hd with ⟨rfl,he⟩|⟨_,hd⟩
    · obtain rfl := Option.some.inj he
      cases hd₀.symm.trans call
      have hw := (write_of_accepted json d₀.wellFormed next hn ha).1
      refine List.mem_append_right _ ?_
      rw [inserts_executes call next exec,if_pos (insert_of_write hw hq),hk]
      exact List.mem_singleton_self k
    · exact hold hd
  | reply | abort =>
    rcases setCall_eq_some.mp hd with ⟨_,he⟩|⟨_,hd⟩
    · cases he
    · exact hold hd
  | receive | insertCommand => exact hold hd

/-- A step of the service keeps the invariant. -/
theorem Kept.serve (h : Kept json db c) (hc : carriesReport ev=false)
    (hs : CloudService.step json c.service ev=some s) :
    Kept json db {c with
      service := s
      attempts := attemptsAfter c.attempts ev
      answered := c.answered++c.answers ev
      recorded := c.recorded++c.inserts json (.serve ev)} := by
  refine ⟨h.reports,?_,?_,?_,?_,fun k hk => List.mem_append_left _ (h.acked k hk),?_,
    h.rows_serve hs⟩
  · intro i d hd hq
    rcases request_of_step hs hd with ⟨d',hd',hr⟩|rfl
    · obtain ⟨k,hk⟩ := h.carried i d' hd' (by rw [hr]; exact hq)
      exact ⟨k,(attemptsAfter_of_call hs hd).trans hk⟩
    · rw [carriesReport,hq] at hc
      cases hc
  · intro i k hk
    obtain ⟨d,hd,hr,hq⟩ := h.attempts i k (attempts_of_attemptsAfter hk)
    obtain ⟨d',hd',hsame⟩ := call_after hs hd hk
    exact ⟨d',hd',by rw [hsame]; exact hr,by rw [hsame]; exact hq⟩
  · intro i k d response hk hd hn ha
    exact h.returning_serve hs (attempts_of_attemptsAfter hk) hd hn ha
  · intro k response hm ha
    rcases List.mem_append.mp hm with hm|hm
    · exact List.mem_append_left _ (h.answered k response hm ha)
    · obtain ⟨i,d,hk,hd,hn⟩ := mem_answers hm
      exact List.mem_append_left _ (h.returning i k d response hk hd hn ha)
  · intro k hk
    rcases List.mem_append.mp hk with hk|hk
    · exact h.issued k hk
    · obtain ⟨i,_,_,_,_,_,_,_,hk⟩ := mem_inserts hk
      obtain ⟨d,_,hr,_⟩ := h.attempts i k hk
      exact (List.getElem?_eq_some_iff.mp hr).1

end Serve

/-- One step keeps the invariant. -/
theorem Kept.step (h : Kept json db c) (hs : c.step json e=some t) : Kept json db t := by
  cases e with
  | issue req =>
    obtain ⟨hq,ht⟩ := Option.ite_none_right_eq_some.mp hs
    cases ht
    exact h.issue hq
  | attempt i k =>
    obtain ⟨_,ht⟩ := Option.ite_none_left_eq_some.mp hs
    obtain ⟨req,hk,ht⟩ := Option.bind_eq_some_iff.mp ht
    obtain ⟨s,hstep,rfl⟩ := Option.map_eq_some_iff.mp ht
    exact h.attempt hk hstep
  | receive k response =>
    obtain ⟨hm,ht⟩ := Option.ite_none_right_eq_some.mp hs
    cases ht
    refine ⟨h.reports,h.carried,h.attempts,h.returning,h.answered,fun j hj => ?_,h.issued,h.rows⟩
    dsimp only at hj
    split at hj
    · rename_i ha
      rcases List.mem_append.mp hj with hj|hj
      · exact h.acked j hj
      · rw [List.mem_singleton.mp hj]
        exact h.answered k response hm ha
    · exact h.acked j hj
  | serve ev =>
    obtain ⟨hc,ht⟩ := Option.ite_none_left_eq_some.mp hs
    obtain ⟨s,hstep,rfl⟩ := Option.map_eq_some_iff.mp ht
    exact h.serve (Bool.not_eq_true _ ▸ hc) hstep

/-- At the end of every run the rows are those of the recorded reports, and
every acknowledged report has been recorded once exactly when no INSERT of it
takes effect after another one. -/
theorem exactlyOnce_iff (json : Jsonb J) (db : Database J) (es : List (ClientEvent J))
    (c : Client J) (hr : run (Client.step json) (Client.start db) es=some c) :
    RowsOfRecorded json db c ∧ (ExactlyOnce c ↔
      EachStep (Client.step json) (InsertsOnce json c.acked) (Client.start db) es) := by
  have hkept : Kept json db c :=
    (eachState_of_invariant (G:=fun _ _ _ => True) (fun _ _ _ hi _ hs => hi.step hs)
      (kept_start db) (EachStep.trivial _ es)).final hr
  refine ⟨hkept.rows,?_⟩
  rw [show InsertsOnce json c.acked=fun d e _ =>
    ∀ k,k∈c.acked → k∈d.inserts json e → k∉d.recorded from rfl,eachStep_forall]
  refine forall_congr' fun k => ?_
  by_cases hk : k∈c.acked
  · have hpos := List.count_pos_iff.mpr (hkept.acked k hk)
    have hone := count_le_one_iff (c:=Client.start db) k (Nat.zero_le 1) hr
    simp only [hk,forall_const]
    rw [←hone]
    omega
  · refine iff_of_true (fun h => absurd h hk) ?_
    exact EachStep.of_events (fun e _ s t h => absurd h hk) _

instance : DecidablePred (ExactlyOnce (J:=J)) := fun c =>
  inferInstanceAs (Decidable (∀ k∈c.acked,c.recorded.count k=1))

/-- A health report that is sent again because its first response was lost. -/
def lostResponse : List (ClientEvent String) :=
  [.issue (.reportHealth "gw" "{}"),.attempt 0 0,.serve (.statement 0 .success),
    .serve (.statement 0 .success),.serve (.reply 0),.attempt 1 0,.serve (.statement 1 .success),
    .serve (.statement 1 .success),.serve (.reply 1),.receive 0 (.reportHealth true)]

/-- The service after the acknowledgement of the second attempt. -/
def lostResponseEnd : Client String :=
  (run (Client.step .sample) (Client.start Database.empty) lostResponse).get (by decide)

/-- The equivalence at the run with the lost response. -/
theorem exactlyOnce_iff_lostResponse :
    RowsOfRecorded .sample Database.empty lostResponseEnd ∧ (ExactlyOnce lostResponseEnd ↔
      EachStep (Client.step .sample) (InsertsOnce .sample lostResponseEnd.acked)
        (Client.start Database.empty) lostResponse) :=
  exactlyOnce_iff .sample Database.empty lostResponse lostResponseEnd (Option.some_get _).symm

/-- The acknowledged report has two rows. -/
theorem report_recorded_twice :
    run (Client.step .sample) (Client.start Database.empty) lostResponse=some lostResponseEnd ∧
      lostResponseEnd.acked=[0] ∧
      healthContents lostResponseEnd.service.db=[("gw","{}"),("gw","{}")] ∧
      ¬ExactlyOnce lostResponseEnd := by
  refine ⟨(Option.some_get _).symm,by decide,by decide,by decide⟩

end Greenhouse.CloudReportRetry
