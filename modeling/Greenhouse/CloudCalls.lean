import Greenhouse.CloudService
import Greenhouse.EventLog

/-!
# What a call costs and what it may answer

A handler never repeats a statement and never leaves one out: an upload makes
one INSERT for each record, whatever happens to the others, and a poll makes one
UPDATE for each command that it returns. The page of a query bounds the loop of
a poll, so the number of statements of every call is bounded by its request. The
answer of a call has the form that its request asks for.
-/

namespace Greenhouse.CloudCalls

open KeyedTable OrderedPage CloudDatabase CloudHandlers CloudService TemporalRuns EventLog

variable {J : Type}

/-- What a request may be answered. -/
inductive Answers : Request → Response → Prop
  /-- Every call but an upload may fail. -/
  | refused {req : Request} (h : ∀ gatewayId records,req≠.uploadTelemetry gatewayId records) :
    Answers req .error
  | acknowledged {req : Request} {reply : Response} (h : req.acknowledgement=some reply) :
    Answers req reply
  /-- Some of the records, in their order. -/
  | accepted {gatewayId : String} {records : List TelemetryRecord} {ids : List Int64}
    (h : ids.Sublist (records.map TelemetryRecord.localId)) :
    Answers (.uploadTelemetry gatewayId records) (.uploadTelemetry ids)
  /-- One page of different commands. -/
  | polled {gatewayId cursor : String} {commands : List CloudCommand} (page : commands.length≤20)
    (distinct : (commands.map CloudCommand.commandId).Nodup) :
    Answers (.checkCommands gatewayId cursor) (.checkCommands commands "")

/-- The statements of a call that gives an answer. -/
def cost : Request → Response → ℕ
  | .registerGateway _ _,_ => 1
  | .uploadTelemetry _ records,_ => records.length+1
  | .checkCommands _ _,.checkCommands commands _ => commands.length+2
  | _,_ => 2

/-- The most statements that a call for a request runs. -/
def mostStatements : Request → ℕ
  | .registerGateway _ _ => 1
  | .uploadTelemetry _ records => records.length+1
  | .checkCommands _ _ => 22
  | _ => 2

/-- The statements of the number since its last request. -/
def statementsSince (i : ℕ) : List (Event J) → ℕ :=
  List.foldl (fun n e =>
    match e with
    | .request j _ => if j=i then 0 else n
    | .statement j _ => if j=i then n+1 else n
    | _ => n) 0

/-- The frames of a request with the statements that lead to them. -/
inductive Spent : Request → Frame → ℕ → Prop
  | start (req : Request) : Spent req req.handler 0
  | reporting {req : Request} {st : Statement} {reply : Response}
    (h : req.acknowledgement=some reply) (two : ∀ r,cost req r=2) : Spent req (.write st reply) 1
  | inserting {gatewayId : String} {done todo : List TelemetryRecord} {ids : List Int64}
    (h : ids.Sublist (done.map TelemetryRecord.localId)) :
    Spent (.uploadTelemetry gatewayId (done++todo)) (.insertRecords gatewayId todo ids)
      (done.length+1)
  | selecting (gatewayId cursor : String) :
    Spent (.checkCommands gatewayId cursor) (.selectCommands gatewayId) 1
  | marking {gatewayId cursor : String} {done todo : List String} {commands : List CloudCommand}
    (ids : commands.map CloudCommand.commandId=done++todo) (page : commands.length≤20)
    (distinct : (commands.map CloudCommand.commandId).Nodup) :
    Spent (.checkCommands gatewayId cursor) (.markCommands todo commands) (done.length+2)
  | returned {req : Request} {reply : Response} (h : Answers req reply) :
    Spent req (.returned reply) (cost req reply)

section Frames

variable {req : Request} {f : Frame} {n : ℕ} {st : Statement}

/-- A call that is about to answer has made all its statements. -/
theorem Spent.next {response : Response} (h : Spent req f n) (hn : f.next=.inr response) :
    Answers req response ∧ n=cost req response := by
  cases h with
  | start => cases req <;> cases hn
  | reporting | selecting => cases hn
  | @inserting gatewayId done todo ids hids =>
    cases todo with
    | nil =>
      cases hn
      rw [List.append_nil]
      exact ⟨.accepted hids,rfl⟩
    | cons => cases hn
  | @marking gatewayId cursor done todo commands hids hpage hdistinct =>
    cases todo with
    | nil =>
      cases hn
      have hlength := congrArg List.length hids
      rw [List.length_map,List.append_nil] at hlength
      exact ⟨.polled hpage hdistinct,congrArg (fun k => k+2) hlength.symm⟩
    | cons => cases hn
  | returned hanswer =>
    cases hn
    exact ⟨hanswer,rfl⟩

/-- The request bounds the statements. -/
theorem Spent.le (h : Spent req f n) : n≤ mostStatements req := by
  cases h with
  | start => exact Nat.zero_le _
  | reporting hack htwo =>
    cases req with
    | registerGateway => cases htwo .error
    | uploadTelemetry => cases hack
    | _ => exact Nat.le_of_ble_eq_true rfl
  | selecting => exact Nat.le_of_ble_eq_true rfl
  | inserting =>
    rw [mostStatements,List.length_append]
    omega
  | @marking _ _ done todo commands hids hpage _ =>
    have hlength := congrArg List.length hids
    rw [List.length_map,List.length_append] at hlength
    rw [mostStatements]
    omega
  | @returned _ reply hanswer =>
    cases hanswer with
    | refused hno =>
      cases req with
      | uploadTelemetry gatewayId records => exact absurd rfl (hno gatewayId records)
      | _ => exact Nat.le_of_ble_eq_true rfl
    | acknowledged hack => cases req <;> cases hack <;> exact Nat.le_of_ble_eq_true rfl
    | accepted => exact le_refl _
    | polled hpage _ => exact Nat.add_le_add_right hpage 2

/-- The page of a query is short and has different commands. -/
theorem scanned_page {json : Jsonb J} {o : Outcome} {gatewayId : String} {db : Database J}
    {fetch : Fetch} {commands : List CloudCommand}
    (h : scanRows json (selectPending o gatewayId db) fetch=some commands) :
    commands.length≤20 ∧ (commands.map CloudCommand.commandId).Nodup := by
  obtain ⟨n,rfl⟩ := scanRows_eq_some h
  have hids : ((selectPending o gatewayId db).map CommandRow.commandId).Nodup := by
    refine page_nodup_map ?_
    exact db.commands.unique.sublist (List.filter_sublist.map _)
  constructor
  · rw [List.length_map]
    exact (List.length_take_le' n _).trans (List.length_take_le 20 _)
  · rw [List.map_map]
    exact hids.sublist ((List.take_sublist n _).map CommandRow.commandId)

/-- One statement more leads to the next frame. -/
theorem Spent.resume {json : Jsonb J} {o : Outcome} {db : Database J} (h : Spent req f n)
    (hn : f.next=.inl st) {answer : Option (List (CommandRow J)×Fetch)}
    (ha : ∀ rows fetch,answer=some (rows,fetch) → ∃ db',st.exec json o db=some (db',rows)) :
    Spent req (f.resume json answer) (n+1) := by
  have hwritten : ∀ (st : Statement) (reply : Response),req.acknowledgement=some reply →
      (∀ r,cost req r=n+1) → Spent req ((Frame.write st reply).resume json answer) (n+1) := by
    intro st reply hack hcost
    dsimp only [Frame.resume]
    split
    · rw [←hcost reply]
      exact .returned (.acknowledged hack)
    · rw [←hcost .error]
      refine .returned (.refused fun gatewayId records he => ?_)
      rw [he] at hack
      cases hack
  cases h with
  | start =>
    cases req with
    | registerGateway => exact hwritten _ _ rfl fun _ => rfl
    | uploadTelemetry gatewayId records => exact @Spent.inserting gatewayId [] records [] (List.nil_sublist _)
    | checkCommands gatewayId cursor => exact .selecting gatewayId cursor
    | reportCommandResult | reportHealth | reportOtaStatus => exact .reporting rfl fun _ => rfl
  | reporting hack htwo => exact hwritten _ _ hack htwo
  | @inserting gatewayId done todo ids hids =>
    cases todo with
    | nil => cases hn
    | cons record todo =>
      have hlist : done++record::todo=done++[record]++todo := by
        rw [List.append_assoc,List.singleton_append]
      have hlength : done.length+1=(done++[record]).length := by
        rw [List.length_append,List.length_singleton]
      rw [hlist,hlength]
      refine .inserting ?_
      rw [List.map_append]
      split
      · exact hids.append (List.Sublist.refl _)
      · exact hids.trans (List.sublist_append_left _ _)
  | selecting gatewayId cursor =>
    dsimp only [Frame.resume]
    cases hn
    split
    · rename_i commands hscan
      obtain ⟨⟨rows,fetch⟩,hanswer,hscan⟩ := Option.bind_eq_some_iff.mp hscan
      obtain ⟨db',hexec⟩ := ha rows fetch hanswer
      simp only [Statement.exec,Option.ite_none_right_eq_some,Option.some.injEq,Prod.mk.injEq] at hexec
      obtain ⟨_,_,rfl⟩ := hexec
      obtain ⟨hpage,hdistinct⟩ := scanned_page hscan
      exact @Spent.marking _ _ [] _ _ rfl hpage hdistinct
    · exact .returned (.refused fun _ _ he => by cases he)
  | @marking gatewayId cursor done todo commands hids hpage hdistinct =>
    cases todo with
    | nil => cases hn
    | cons id todo =>
      have hlist : done++id::todo=done++[id]++todo := by
        rw [List.append_assoc,List.singleton_append]
      have hlength : done.length+2+1=(done++[id]).length+2 := by
        rw [List.length_append,List.length_singleton]
      rw [hlist] at hids
      rw [hlength]
      exact .marking hids hpage hdistinct
  | returned => cases hn

end Frames

section Runs

variable {json : Jsonb J} {s t : Service J} {e : Event J} {es : List (Event J)}

/-- Every call has spent the statements since its request. -/
def AllSpent (s : Service J) (es : List (Event J)) : Prop :=
  ∀ i c,s.calls i=some c → Spent c.request c.frame (statementsSince i es)

/-- One event more. -/
theorem statementsSince_concat (i : ℕ) (e : Event J) : statementsSince i (es++[e])=
    match e with
    | .request j _ => if j=i then 0 else statementsSince i es
    | .statement j _ => if j=i then statementsSince i es+1 else statementsSince i es
    | _ => statementsSince i es := by
  rw [statementsSince,List.foldl_concat]

/-- A step lets one call spend one statement, or starts one that has spent none. -/
theorem AllSpent.step (h : AllSpent s es) (hs : step json s e=some t) : AllSpent t (es++[e]) := by
  intro i d hd
  rw [statementsSince_concat]
  cases step_transition hs with
  | @request j req free =>
    dsimp only
    rcases setCall_eq_some.mp hd with ⟨rfl,he⟩|⟨hne,hc⟩
    · obtain rfl := Option.some.inj he
      rw [if_pos rfl]
      exact .start req
    · rw [if_neg (Ne.symm hne)]
      exact h i d hc
  | @fails j o c st call next exec =>
    dsimp only
    rcases setCall_eq_some.mp hd with ⟨rfl,he⟩|⟨hne,hc⟩
    · obtain rfl := Option.some.inj he
      rw [if_pos rfl]
      have hnone : ∀ (rows : List (CommandRow J)) (fetch : Fetch),none=some (rows,fetch) →
          ∃ db',st.exec json o s.db=some (db',rows) := fun _ _ ha => by cases ha
      exact (h i c call).resume next hnone
    · rw [if_neg (Ne.symm hne)]
      exact h i d hc
  | @executes j o c st db rows call next exec =>
    dsimp only
    rcases setCall_eq_some.mp hd with ⟨rfl,he⟩|⟨hne,hc⟩
    · obtain rfl := Option.some.inj he
      rw [if_pos rfl]
      have hrows : ∀ (rows' : List (CommandRow J)) (fetch : Fetch),some (rows,o.fetch)=some (rows',fetch) →
          ∃ db',st.exec json o s.db=some (db',rows') := by
        intro rows' fetch ha
        cases ha
        exact ⟨db,exec⟩
      exact (h i c call).resume next hrows
    · rw [if_neg (Ne.symm hne)]
      exact h i d hc
  | reply call next | abort call =>
    rcases setCall_eq_some.mp hd with ⟨_,he⟩|⟨_,hc⟩
    · cases he
    · exact h i d hc
  | receive sent | insertCommand fresh => exact h i d hd

/-- In every run, a call runs no more statements than its request allows, and
when it answers it has run exactly those that the answer costs. -/
theorem calls_spend (json : Jsonb J) (db : Database J) (es : List (Event J)) (t : Service J) (i : ℕ)
    (c : Call) (h : run (step json) (Service.start db) es=some t) (hc : t.calls i=some c) :
    statementsSince i es≤ mostStatements c.request ∧
      ∀ response,c.frame.next=.inr response →
        Answers c.request response ∧ statementsSince i es=cost c.request response := by
  have hspent := events_run (I:=AllSpent) [] (fun _ _ _ _ hall hs => hall.step hs)
    (fun _ _ hstart => by cases hstart) h i c hc
  exact ⟨hspent.le,fun response hn => hspent.next hn⟩

/-- An upload whose first INSERT fails. -/
def uploadRun : List (Event String) :=
  [.request 0 (.uploadTelemetry "gw" [⟨1,"dev",5,"0"⟩,⟨2,"dev",6,"1"⟩]),.statement 0 .success,
    .statement 0 .failure,.statement 0 .success]

/-- The second INSERT is made all the same. -/
theorem calls_spend_uploadRun :
    ∃ t c,run (step .sample) (Service.start Database.empty) uploadRun=some t ∧ t.calls 0=some c ∧
      Answers c.request (.uploadTelemetry [2]) ∧
      statementsSince 0 uploadRun=cost c.request (.uploadTelemetry [2]) :=
  ⟨_,_,rfl,rfl,(calls_spend .sample Database.empty uploadRun _ 0 _ rfl rfl).2 _ rfl⟩

end Runs

end Greenhouse.CloudCalls
