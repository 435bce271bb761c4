import Greenhouse.CloudCommandOrder
import Greenhouse.PagedQueue

/-!
# Draining the commands of a gateway

When the polls of a gateway do not overlap and none of their statements fails,
a poll takes a page of the pending commands: it returns the page and marks all
of it. The pending commands and the returned ones are then a queue that is read
page by page.
-/

namespace Greenhouse.CloudCommandDrain

open KeyedTable OrderedPage PagedQueue CloudDatabase CloudHandlers CloudService TemporalRuns
open CloudCommandDelivery CloudCommandOrder

variable {J : Type}

/-- All rows of a page of twenty are read. -/
def readsAll : Fetch → Bool
  | .rows n => decide (20≤n)
  | .scanError n => decide (20≤n)

/-- The next statement of a call succeeds. -/
def succeeds (json : Jsonb J) (s : Service J) (i : ℕ) (o : Outcome) : Bool :=
  match s.calls i with
  | none => false
  | some c =>
    match c.frame.next with
    | .inl st => (st.exec json o s.db).isSome && readsAll o.fetch
    | .inr _ => false

/-- One step of a service without statement failures. -/
def succeedingStep (json : Jsonb J) (s : Service J) : Event J → Option (Service J)
  | .statement i o => if succeeds json s i o=true then step json s (.statement i o) else none
  | e => step json s e

/-- What happens between two polls of a gateway, and a poll from its request to
its response. -/
inductive Round (J : Type)
  /-- A command is inserted from outside. -/
  | insert (c : NewCommand J)
  /-- A CheckCommands call, with an outcome for each of its statements. -/
  | poll (cursor : String) (outcomes : List Outcome)

/-- The events of a round. -/
def Round.events (gatewayId : String) : Round J → List (Event J)
  | insert c => [.insertCommand c]
  | poll cursor outcomes =>
    .request 0 (.checkCommands gatewayId cursor)::(outcomes.map (.statement 0)++[.reply 0])

/-- A round, executed to its end without statement failures. -/
def roundStep (json : Jsonb J) (gatewayId : String) (s : Service J) (r : Round J) :
    Option (Service J) :=
  run (succeedingStep json) s (r.events gatewayId)

/-- The command that a round inserts. -/
def Round.newCommand : Round J → Option (NewCommand J)
  | insert c => some c
  | poll _ _ => none

/-- A command is inserted at a creation time no earlier than those of the
commands of its gateway. -/
def InsertedLater (s : Service J) (r : Round J) (_ : Service J) : Prop :=
  ∀ c∈r.newCommand,∀ row∈s.db.commands.rows,row.gatewayId=c.gatewayId →
    nullsLast row.createdAt≤nullsLast c.createdAt

instance (s t : Service J) (r : Round J) : Decidable (InsertedLater s r t) :=
  inferInstanceAs (Decidable (∀ c∈r.newCommand,_))

/-- A poll returns a page of the pending commands, the earliest ones, with the
stored targets and payloads, and exactly the others stay pending. -/
def PollTakesPage (json : Jsonb J) (gatewayId : String) (s : Service J) (r : Round J)
    (t : Service J) : Prop :=
  ∀ cursor outcomes,r=.poll cursor outcomes → ∃ page,
    IsPage (fun row => nullsLast row.createdAt) 20 (pendingRows gatewayId s.db) page
      (pendingRows gatewayId t.db) ∧
    t.returned=s.returned++
      [(.checkCommands gatewayId cursor,.checkCommands (page.map (cloudCommand json)) "")]

/-- The command of an insertion as its gateway will see it. -/
def NewCommand.cloudCommand (json : Jsonb J) (c : NewCommand J) : CloudCommand :=
  ⟨c.commandId,c.targetDeviceId,json.print c.payload⟩

/-- The commands that a round inserts for a gateway. -/
def Round.inserted (json : Jsonb J) (gatewayId : String) : Round J → List CloudCommand
  | insert c => if c.gatewayId=gatewayId then [NewCommand.cloudCommand json c] else []
  | poll _ _ => []

/-- Whether a round is a poll. -/
def Round.isPoll : Round J → Bool
  | insert _ => false
  | poll _ _ => true

variable {json : Jsonb J} {gatewayId : String} {s t : Service J}

section Poll

variable {i : ℕ} {o : Outcome} {c : Call}

/-- A statement of a step without failures takes effect. -/
theorem succeeding_statement (h : succeedingStep json s (.statement i o)=some t) :
    ∃ c st db rows,s.calls i=some c ∧ c.frame.next=.inl st ∧
      st.exec json o s.db=some (db,rows) ∧ readsAll o.fetch=true ∧
      t={s with db := db,calls := setCall s.calls i (some (c.resume json (some (rows,o.fetch))))} := by
  obtain ⟨hok,hs⟩ := Option.ite_none_right_eq_some.mp h
  cases step_transition hs with
  | fails call next exec =>
    simp only [succeeds,call,next,exec,Option.isSome_none,Bool.false_and,Bool.false_eq_true] at hok
  | executes call next exec =>
    simp only [succeeds,call,next,exec,Option.isSome_some,Bool.true_and] at hok
    exact ⟨_,_,_,_,call,next,exec,hok,rfl⟩

/-- A handler returns only when it has no statement left. -/
theorem succeeding_reply (h : succeedingStep json s (.reply i)=some t) :
    ∃ c response,s.calls i=some c ∧ c.frame.next=.inr response ∧
      t={s with calls := setCall s.calls i none,returned := s.returned++[(c.request,response)]} := by
  have hs : step json s (.reply i)=some t := h
  cases step_transition hs with
  | reply call next => exact ⟨_,_,call,next,rfl⟩

/-- The columns of a command that polls do not change. -/
def contents (r : CommandRow J) : String×String×String×J×Option Timestamp :=
  (r.gatewayId,r.commandId,r.targetDeviceId,r.payload,r.createdAt)

theorem contents_markDelivered {now : Timestamp} {id : String}
    {t : Table (CommandRow J) CommandRow.commandId} :
    (markDelivered now id t).rows.map contents=t.rows.map contents :=
  Table.map_updateWhere fun _ => rfl

/-- Marking one command takes it out of the pending ones. -/
theorem pendingRows_markDelivered {db : Database J} {now : Timestamp} {id : String} :
    pendingRows gatewayId {db with commands := markDelivered now id db.commands}=
      (pendingRows gatewayId db).filter fun r => decide (r.commandId≠id) := by
  have hnone : "delivered"≠"pending" := by decide
  dsimp only [pendingRows,Table.slice,markDelivered,Table.updateWhere]
  induction db.commands.rows with
  | nil => rfl
  | cons r rows ih =>
    rw [List.map_cons,List.filter_cons,List.filter_cons,ih]
    by_cases hid : r.commandId=id
    · simp only [hid,decide_true,if_true,hnone,decide_false,Bool.and_false,Bool.false_eq_true,
        if_false]
      split
      · rw [List.filter_cons,if_neg]
        simp only [hid,ne_eq,not_true_eq_false,decide_false,Bool.false_eq_true,not_false_eq_true]
      · rfl
    · simp only [hid,decide_false,Bool.false_eq_true,if_false]
      split
      · rw [List.filter_cons,if_pos]
        exact decide_eq_true hid
      · rfl

/-- The marking loop of a poll, up to its response. -/
theorem marks_run (gatewayId : String) {todo : List String} {commands : List CloudCommand} {outcomes : List Outcome}
    (hc : s.calls 0=some c) (hf : c.frame=.markCommands todo commands)
    (hr : run (succeedingStep json) s (outcomes.map (.statement 0)++[.reply 0])=some t) :
    t.returned=s.returned++[(c.request,.checkCommands commands "")] ∧
      pendingRows gatewayId t.db=
        (pendingRows gatewayId s.db).filter (fun r => decide (r.commandId∉todo)) ∧
      t.db.commands.rows.map contents=s.db.commands.rows.map contents := by
  induction todo generalizing s c outcomes with
  | nil =>
    cases outcomes with
    | cons o outcomes =>
      obtain ⟨u,hu,_⟩ := run_cons.mp hr
      obtain ⟨c',st,_,_,hc',hn,_⟩ := succeeding_statement hu
      cases hc.symm.trans hc'
      rw [hf] at hn
      cases hn
    | nil =>
      obtain ⟨u,hu,hr⟩ := run_cons.mp hr
      cases hr
      obtain ⟨c',response,hc',hn,rfl⟩ := succeeding_reply hu
      cases hc.symm.trans hc'
      rw [hf] at hn
      cases hn
      refine ⟨rfl,(List.filter_eq_self.mpr fun _ _ => ?_).symm,rfl⟩
      exact decide_eq_true List.not_mem_nil
  | cons id todo ih =>
    cases outcomes with
    | nil =>
      obtain ⟨u,hu,_⟩ := run_cons.mp hr
      obtain ⟨c',response,hc',hn,_⟩ := succeeding_reply hu
      cases hc.symm.trans hc'
      rw [hf] at hn
      cases hn
    | cons o outcomes =>
      obtain ⟨u,hu,hr⟩ := run_cons.mp hr
      obtain ⟨c',st,db,rows,hc',hn,hx,_,rfl⟩ := succeeding_statement hu
      cases hc.symm.trans hc'
      rw [hf] at hn
      cases hn
      simp only [Statement.exec,Option.ite_none_right_eq_some,Option.some.injEq,
        Prod.mk.injEq] at hx
      obtain ⟨_,rfl,_⟩ := hx
      have hnext : setCall s.calls 0 (some (c.resume json (some (rows,o.fetch)))) 0=
          some (c.resume json (some (rows,o.fetch))) := setCall_self _ _ _
      have hframe : (c.resume json (some (rows,o.fetch))).frame=.markCommands todo commands := by
        dsimp only [Call.resume]
        rw [hf]
        rfl
      obtain ⟨hreturned,hpending,hcontents⟩ := ih hnext hframe hr
      refine ⟨hreturned,?_,hcontents.trans contents_markDelivered⟩
      rw [hpending]
      dsimp only
      rw [pendingRows_markDelivered,List.filter_filter]
      refine List.filter_congr fun r _ => ?_
      rw [←Bool.decide_and,decide_eq_decide,List.mem_cons,not_or,and_comm]

/-- No reply while a statement is left. -/
theorem succeeding_reply_ne {st : Statement} (hc : s.calls i=some c) (hn : c.frame.next=.inl st) :
    succeedingStep json s (.reply i)≠some t := by
  intro h
  obtain ⟨c',response,hc',hn',_⟩ := succeeding_reply h
  cases hc.symm.trans hc'
  rw [hn] at hn'
  cases hn'

/-- The update of last_seen leaves the commands alone. -/
theorem succeeding_touch {rest : Frame} (hc : s.calls i=some c) (hf : c.frame=.touch gatewayId rest)
    (h : succeedingStep json s (.statement i o)=some t) :
    t.db.commands=s.db.commands ∧ t.returned=s.returned ∧
      ∃ d,t.calls i=some d ∧ d.request=c.request ∧ d.frame=rest := by
  obtain ⟨c',st,db,rows,hc',hn,hx,_,rfl⟩ := succeeding_statement h
  cases hc.symm.trans hc'
  rw [hf] at hn
  cases hn
  simp only [Statement.exec,Option.ite_none_right_eq_some,Option.some.injEq,Prod.mk.injEq] at hx
  obtain ⟨_,rfl,_⟩ := hx
  refine ⟨rfl,rfl,_,setCall_self _ _ _,rfl,?_⟩
  dsimp only [Call.resume]
  rw [hf]
  rfl

/-- The query of a poll selects a page, and all of it is read. -/
theorem succeeding_select (hc : s.calls i=some c) (hf : c.frame=.selectCommands gatewayId)
    (h : succeedingStep json s (.statement i o)=some t) :
    t.db=s.db ∧ t.returned=s.returned ∧ ∃ d,t.calls i=some d ∧ d.request=c.request ∧
      d.frame=.markCommands
        (((selectPending o gatewayId s.db).map (cloudCommand json)).map CloudCommand.commandId)
        ((selectPending o gatewayId s.db).map (cloudCommand json)) := by
  obtain ⟨c',st,db,rows,hc',hn,hx,hall,rfl⟩ := succeeding_statement h
  cases hc.symm.trans hc'
  rw [hf] at hn
  cases hn
  simp only [Statement.exec,Option.ite_none_right_eq_some,Option.some.injEq,Prod.mk.injEq] at hx
  obtain ⟨_,rfl,rfl⟩ := hx
  have hsize : (selectPending o gatewayId s.db).length≤20 := by
    rw [selectPending,page,List.length_take]
    exact Nat.min_le_left _ _
  have hscan : scanRows json (selectPending o gatewayId s.db) o.fetch=
      some ((selectPending o gatewayId s.db).map (cloudCommand json)) := by
    cases hfetch : o.fetch with
    | rows n =>
      rw [hfetch] at hall
      rw [scanRows,List.take_of_length_le (hsize.trans (of_decide_eq_true hall))]
    | scanError n =>
      rw [hfetch] at hall
      exact if_neg (Nat.not_lt.mpr (hsize.trans (of_decide_eq_true hall)))
  refine ⟨rfl,rfl,_,setCall_self _ _ _,rfl,?_⟩
  dsimp only [Call.resume]
  rw [hf]
  dsimp only [Frame.resume]
  rw [Option.bind_some,hscan]

/-- A poll without failures takes a page of the pending commands. -/
theorem poll_spec {cursor : String} {outcomes : List Outcome}
    (h : roundStep json gatewayId s (.poll cursor outcomes)=some t) :
    PollTakesPage json gatewayId s (.poll cursor outcomes) t ∧
      t.db.commands.rows.map contents=s.db.commands.rows.map contents := by
  obtain ⟨s₁,h₁,hr⟩ := run_cons.mp h
  obtain ⟨c₁,hc₁,hq₁,hf₁,hdb₁,hret₁⟩ : ∃ c,s₁.calls 0=some c ∧
      c.request=.checkCommands gatewayId cursor ∧ c.frame=checkCommands gatewayId ∧
      s₁.db=s.db ∧ s₁.returned=s.returned := by
    have hs₁ : step json s (.request 0 (.checkCommands gatewayId cursor))=some s₁ := h₁
    cases step_transition hs₁ with
    | request free =>
      have hc₁ := setCall_self s.calls 0 (some (.start (.checkCommands gatewayId cursor)))
      exact ⟨.start (.checkCommands gatewayId cursor),hc₁,rfl,rfl,rfl,rfl⟩
  cases outcomes with
  | nil =>
    obtain ⟨u,hu,_⟩ := run_cons.mp hr
    exact absurd hu (succeeding_reply_ne hc₁ (by rw [hf₁]; rfl))
  | cons o₁ outcomes =>
    obtain ⟨s₂,h₂,hr⟩ := run_cons.mp hr
    obtain ⟨hcom₂,hret₂,c₂,hc₂,hq₂,hf₂⟩ := succeeding_touch hc₁ hf₁ h₂
    cases outcomes with
    | nil =>
      obtain ⟨u,hu,_⟩ := run_cons.mp hr
      exact absurd hu (succeeding_reply_ne hc₂ (by rw [hf₂]; rfl))
    | cons o outcomes =>
      obtain ⟨s₃,h₃,hr⟩ := run_cons.mp hr
      obtain ⟨hdb₃,hret₃,c₃,hc₃,hq₃,hf₃⟩ := succeeding_select hc₂ hf₂ h₃
      obtain ⟨hreturned,hpending,hcontents⟩ := marks_run gatewayId hc₃ hf₃ hr
      have hrows : s₂.db.commands=s.db.commands := hcom₂.trans (congrArg Database.commands hdb₁)
      have hsame : pendingRows gatewayId s₂.db=pendingRows gatewayId s.db :=
        congrArg (Table.slice _) hrows
      refine ⟨?_,?_⟩
      · intro cursor' outcomes' he
        cases he
        have hnodup : ((pendingRows gatewayId s.db).map CommandRow.commandId).Nodup :=
          s.db.commands.unique.sublist (List.filter_sublist.map _)
        refine ⟨selectPending o gatewayId s₂.db,?_,?_⟩
        · rw [hpending,hdb₃,List.map_map,selectPending,hsame]
          exact page_isPage (fun row => nullsLast row.createdAt) (fun row => o.rank row.commandId) 20
            hnodup
        · rw [hreturned,hret₃,hret₂,hret₁,hq₃,hq₂,hq₁]
      · rw [hcontents,hdb₃,hrows]

/-- A statement that the database executes succeeds. -/
theorem exists_statement {st : Statement} {db : Database J} {rows : List (CommandRow J)}
    (hc : s.calls i=some c) (hn : c.frame.next=.inl st)
    (hx : st.exec json .success s.db=some (db,rows)) :
    ∃ u,succeedingStep json s (.statement i .success)=some u ∧ u.db=db ∧
      u.calls i=some (c.resume json (some (rows,.rows 20))) := by
  have hok : succeeds json s i .success=true := by
    simp only [succeeds,hc,hn,hx,Option.isSome_some,Bool.true_and]
    rfl
  exact ⟨_,(if_pos hok).trans (Transition.executes hc hn hx).step,rfl,setCall_self _ _ _⟩

/-- The marking loop can be executed to the response. -/
theorem exists_marks (json : Jsonb J) {todo : List String} {commands : List CloudCommand} (hc : s.calls 0=some c)
    (hf : c.frame=.markCommands todo commands) (hok : ∀ id∈todo,textOk id=true) :
    ∃ (outcomes : List Outcome) (t : Service J),
      run (succeedingStep json) s (outcomes.map (.statement 0)++[.reply 0])=some t ∧
        t.calls 0=none := by
  induction todo generalizing s c with
  | nil =>
    have hn : c.frame.next=.inr (.checkCommands commands "") := by rw [hf]; rfl
    have hreply : Transition json s (.reply 0) _ := .reply hc hn
    exact ⟨[],_,run_cons.mpr ⟨_,hreply.step,rfl⟩,setCall_self s.calls 0 none⟩
  | cons id todo ih =>
    have hn : c.frame.next=.inl (.markDelivered id) := by rw [hf]; rfl
    have hx : Statement.exec json .success s.db (.markDelivered id)=
        some ({s.db with commands := markDelivered 0 id s.db.commands},[]) := by
      simp only [Statement.exec,Outcome.success,hok id List.mem_cons_self,Bool.not_false,
        Bool.and_self,if_true]
    obtain ⟨u,hu,_,hcu⟩ := exists_statement hc hn hx
    have hfu : (c.resume json (some ([],.rows 20))).frame=.markCommands todo commands := by
      dsimp only [Call.resume]
      rw [hf]
      rfl
    obtain ⟨outcomes,t,hr,ht⟩ := ih hcu hfu fun id hid => hok id (List.mem_cons_of_mem _ hid)
    exact ⟨.success::outcomes,t,run_cons.mpr ⟨u,hu,hr⟩,ht⟩

/-- From every state in which no text is refused, a poll without failures runs
to its response. -/
theorem exists_poll (json : Jsonb J) (cursor : String) (hfree : s.calls 0=none)
    (hg : textOk gatewayId=true)
    (hids : ∀ row∈pendingRows gatewayId s.db,textOk row.commandId=true) :
    ∃ outcomes t,roundStep json gatewayId s (.poll cursor outcomes)=some t ∧ t.calls 0=none := by
  obtain ⟨s₁,h₁,hdb₁,hc₁⟩ : ∃ u,step json s (.request 0 (.checkCommands gatewayId cursor))=some u ∧
      u.db=s.db ∧ u.calls 0=some (.start (.checkCommands gatewayId cursor)) :=
    ⟨_,(Transition.request hfree).step,rfl,
      setCall_self s.calls 0 (some (.start (.checkCommands gatewayId cursor)))⟩
  have hx₁ : Statement.exec json .success s₁.db (.touchGateway gatewayId)=
      some ({s₁.db with gateways := touchGateway 0 gatewayId s₁.db.gateways},[]) := by
    simp only [Statement.exec,Outcome.success,hg,Bool.not_false,Bool.and_self,if_true]
  obtain ⟨s₂,h₂,hdb₂,hc₂⟩ := exists_statement hc₁ rfl hx₁
  have hx₂ : Statement.exec json .success s₂.db (.selectPending gatewayId)=
      some (s₂.db,selectPending .success gatewayId s₂.db) := by
    simp only [Statement.exec,Outcome.success,hg,Bool.not_false,Bool.and_self,if_true]
  obtain ⟨s₃,h₃,_,hc₃⟩ := exists_statement hc₂ rfl hx₂
  have hok : ∀ id∈(((selectPending .success gatewayId s₂.db).take 20).map (cloudCommand json)).map
      CloudCommand.commandId,textOk id=true := by
    intro id hid
    rw [List.map_map] at hid
    obtain ⟨row,hr,rfl⟩ := List.mem_map.mp hid
    obtain ⟨hr,hrg,hp⟩ := mem_selectPending (List.mem_of_mem_take hr)
    rw [hdb₂,hdb₁] at hr
    exact hids row (mem_pendingRows.mpr ⟨hr,hrg,hp⟩)
  obtain ⟨outcomes,t,hr,ht⟩ := exists_marks json hc₃ rfl hok
  exact ⟨.success::.success::outcomes,t,run_cons.mpr ⟨s₁,h₁,run_cons.mpr ⟨s₂,h₂,
    run_cons.mpr ⟨s₃,h₃,hr⟩⟩⟩,ht⟩

end Poll

/-- Steps without failures are steps of the service. -/
theorem run_of_succeeding {es : List (Event J)} (h : run (succeedingStep json) s es=some t) :
    run (step json) s es=some t := by
  induction es generalizing s with
  | nil => exact h
  | cons e es ih =>
    obtain ⟨u,hu,hr⟩ := run_cons.mp h
    refine run_cons.mpr ⟨u,?_,ih hr⟩
    cases e with
    | statement i o => exact (Option.ite_none_right_eq_some.mp hu).2
    | _ => exact hu

section Queue

variable {q : Queue (CloudCommand×Option Timestamp)} {r : Round J}

/-- A command as its gateway sees it, with its creation time. -/
def item (json : Jsonb J) (row : CommandRow J) : CloudCommand×Option Timestamp :=
  (cloudCommand json row,row.createdAt)

/-- The order of the items. -/
def itemKey (x : CloudCommand×Option Timestamp) : WithTop ℕ := nullsLast x.2

/-- The command_id of an item. -/
def itemId (x : CloudCommand×Option Timestamp) : String := x.1.commandId

/-- The commands of a gateway as a queue that is read page by page. -/
structure View (json : Jsonb J) (gatewayId : String) (s : Service J)
    (q : Queue (CloudCommand×Option Timestamp)) : Prop where
  waiting : q.waiting=(pendingRows gatewayId s.db).map (item json)
  out : q.out.map Prod.fst=handedOut gatewayId s.returned
  stored : ∀ x∈q.out,∃ row∈s.db.commands.rows,row.gatewayId=gatewayId ∧ item json row=x
  distinct : ((q.out++q.waiting).map itemId).Nodup

/-- The items that a round inserts for a gateway. -/
def Round.items (json : Jsonb J) (gatewayId : String) : Round J → List (CloudCommand×Option Timestamp)
  | insert c => if c.gatewayId=gatewayId then [(NewCommand.cloudCommand json c,c.createdAt)] else []
  | poll _ _ => []

theorem Round.items_map_fst (r : Round J) :
    (r.items json gatewayId).map Prod.fst=r.inserted json gatewayId := by
  cases r with
  | insert c =>
    dsimp only [Round.items,Round.inserted]
    split <;> rfl
  | poll cursor outcomes => rfl

/-- A stored command is still stored when its contents are. -/
theorem stored_of_contents {x : CloudCommand×Option Timestamp}
    (h : t.db.commands.rows.map contents=s.db.commands.rows.map contents)
    (hx : ∃ row∈s.db.commands.rows,row.gatewayId=gatewayId ∧ item json row=x) :
    ∃ row∈t.db.commands.rows,row.gatewayId=gatewayId ∧ item json row=x := by
  obtain ⟨row,hr,hg,rfl⟩ := hx
  have hm : contents row∈t.db.commands.rows.map contents := by
    rw [h]
    exact List.mem_map_of_mem hr
  obtain ⟨row',hr',he⟩ := List.mem_map.mp hm
  simp only [contents,Prod.mk.injEq] at he
  obtain ⟨hg',hid,htarget,hpayload,hcreated⟩ := he
  refine ⟨row',hr',hg'.trans hg,?_⟩
  rw [item,item,cloudCommand,cloudCommand,hid,htarget,hpayload,hcreated]

/-- Every item belongs to a stored command. -/
theorem View.known (h : View json gatewayId s q) (x : CloudCommand×Option Timestamp)
    (hx : x∈q.out++q.waiting) : ∃ row∈s.db.commands.rows,row.commandId=itemId x := by
  rcases List.mem_append.mp hx with hx|hx
  · obtain ⟨row,hr,_,rfl⟩ := h.stored x hx
    exact ⟨row,hr,rfl⟩
  · rw [h.waiting] at hx
    obtain ⟨row,hr,rfl⟩ := List.mem_map.mp hx
    exact ⟨row,(mem_pendingRows.mp hr).1,rfl⟩

/-- The pending commands of a gateway after an insertion. -/
theorem pendingRows_insert {db : Database J} {c : NewCommand J}
    (fresh : c.commandId∉db.commands.rows.map CommandRow.commandId) :
    pendingRows gatewayId {db with commands := db.commands.insertIgnore c.row}=
      pendingRows gatewayId db++if c.gatewayId=gatewayId then [c.row] else [] := by
  dsimp only [pendingRows]
  rw [Table.slice_insertIgnore_of_notMem fresh]
  congr 1
  by_cases hg : c.gatewayId=gatewayId
  · rw [if_pos hg,List.filter_cons,if_pos]
    · rfl
    · simp only [NewCommand.row,hg,decide_true,Bool.and_self]
  · rw [if_neg hg,List.filter_cons,if_neg]
    · rfl
    · simp only [NewCommand.row,hg,decide_false,Bool.false_and,Bool.false_eq_true,
        not_false_eq_true]

/-- A command with a new command_id that is later than all handed out joins the
end of the queue. -/
theorem View.insertStep {c : NewCommand J} (h : View json gatewayId s q)
    (fresh : c.commandId∉s.db.commands.rows.map CommandRow.commandId)
    (hlater : ∀ x∈q.out,itemKey x ≤ itemKey (item json c.row)) (hg : c.gatewayId=gatewayId) :
    PagedQueue.Step itemKey 20 q ⟨q.waiting++[item json c.row],q.out⟩ [item json c.row] ∧
      View json gatewayId {s with
        db := {s.db with commands := s.db.commands.insertIgnore c.row}}
        ⟨q.waiting++[item json c.row],q.out⟩ := by
  have hstep : PagedQueue.Step itemKey 20 q ⟨q.waiting++[item json c.row],q.out⟩
      [item json c.row] := .insert hlater
  refine ⟨hstep,?_,h.out,?_,?_⟩
  · dsimp only
    rw [pendingRows_insert fresh,if_pos hg,List.map_append,h.waiting]
    rfl
  · intro x hx
    obtain ⟨row,hr,hrg,hrow⟩ := h.stored x hx
    exact ⟨row,Table.mem_insertIgnore_of_mem hr,hrg,hrow⟩
  · refine (hstep.perm.map itemId).nodup_iff.mpr ?_
    rw [List.map_append,List.nodup_append]
    refine ⟨h.distinct,List.nodup_singleton _,fun a ha b hb he => fresh ?_⟩
    obtain ⟨x,hx,rfl⟩ := List.mem_map.mp ha
    have hid : c.commandId=itemId x := (List.mem_singleton.mp hb).symm.trans he.symm
    obtain ⟨row,hr,hrow⟩ := h.known x hx
    rw [hid,←hrow]
    exact List.mem_map_of_mem hr

/-- A command for another gateway does not change the queue. -/
theorem View.insertOther {c : NewCommand J} (h : View json gatewayId s q)
    (fresh : c.commandId∉s.db.commands.rows.map CommandRow.commandId)
    (hg : c.gatewayId≠gatewayId) :
    View json gatewayId {s with
      db := {s.db with commands := s.db.commands.insertIgnore c.row}} q := by
  refine ⟨?_,h.out,?_,h.distinct⟩
  · dsimp only
    rw [pendingRows_insert fresh,if_neg hg,List.append_nil,h.waiting]
  · intro x hx
    obtain ⟨row,hr,hrg,hrow⟩ := h.stored x hx
    exact ⟨row,Table.mem_insertIgnore_of_mem hr,hrg,hrow⟩

/-- Polls and insertions are steps of the queue. -/
theorem View.step (h : View json gatewayId s q) (hl : InsertedLater s r t)
    (hs : roundStep json gatewayId s r=some t) :
    ∃ q',View json gatewayId t q' ∧ (Ordered itemKey q → Ordered itemKey q') ∧
      (q'.out++q'.waiting).Perm (q.out++q.waiting++r.items json gatewayId) := by
  cases r with
  | poll cursor outcomes =>
    obtain ⟨hpage,hcontents⟩ := poll_spec hs
    obtain ⟨page,hpage,hreturned⟩ := hpage cursor outcomes rfl
    have hitems := hpage.map (item json) itemKey fun _ => rfl
    rw [←h.waiting] at hitems
    have hstep : PagedQueue.Step itemKey 20 q ⟨_,_⟩ [] := .take hitems
    refine ⟨_,⟨rfl,?_,fun x hx => ?_,?_⟩,fun ho => ho.step hstep,hstep.perm⟩
    · dsimp only
      rw [List.map_append,h.out,hreturned,handedOut_append,List.map_map]
      simp only [handedOut,List.flatMap_cons,List.flatMap_nil,List.append_nil,if_true]
      rfl
    · refine stored_of_contents hcontents ?_
      rcases List.mem_append.mp hx with hx|hx
      · exact h.stored x hx
      · obtain ⟨row,hr,rfl⟩ := List.mem_map.mp hx
        obtain ⟨hr,hg,_⟩ := mem_pendingRows.mp (hpage.split.mem_iff.mpr (List.mem_append_left _ hr))
        exact ⟨row,hr,hg,rfl⟩
    · have hperm := hstep.perm
      rw [List.append_nil] at hperm
      exact (hperm.map itemId).nodup_iff.mpr h.distinct
  | insert c =>
    obtain ⟨u,hu,hr⟩ := run_cons.mp hs
    cases hr
    have hu' : CloudService.step json s (.insertCommand c)=some t := hu
    cases step_transition hu' with
    | insertCommand fresh =>
      by_cases hg : c.gatewayId=gatewayId
      · have hlater : ∀ x∈q.out,itemKey x ≤ itemKey (item json c.row) := by
          intro x hx
          obtain ⟨row,hr,hrg,rfl⟩ := h.stored x hx
          exact hl c rfl row hr (hrg.trans hg.symm)
        obtain ⟨hstep,hview⟩ := h.insertStep fresh hlater hg
        have hitems : Round.items json gatewayId (.insert c)=[item json c.row] := if_pos hg
        refine ⟨_,hview,fun ho => ho.step hstep,?_⟩
        rw [hitems]
        exact hstep.perm
      · have hitems : Round.items json gatewayId (.insert c)=[] := if_neg hg
        refine ⟨q,h.insertOther fresh hg,id,?_⟩
        rw [hitems,List.append_nil]

/-- Along a run the queue stays in order, and its items are the first ones and
those inserted. -/
theorem View.run {rounds : List (Round J)} (h : View json gatewayId s q) (ho : Ordered itemKey q)
    (hl : EachStep (roundStep json gatewayId) InsertedLater s rounds)
    (hr : run (roundStep json gatewayId) s rounds=some t) :
    ∃ q',View json gatewayId t q' ∧ Ordered itemKey q' ∧
      (q'.out++q'.waiting).Perm
        (q.out++q.waiting++rounds.flatMap (Round.items json gatewayId)) := by
  induction rounds generalizing s q with
  | nil =>
    cases hr
    refine ⟨q,h,ho,?_⟩
    rw [List.flatMap_nil,List.append_nil]
  | cons r rounds ih =>
    obtain ⟨u,hu,hr⟩ := run_cons.mp hr
    obtain ⟨hlr,hlater⟩ := hl u hu
    obtain ⟨q₁,h₁,ho₁,hp₁⟩ := h.step hlr hu
    obtain ⟨q₂,h₂,ho₂,hp₂⟩ := ih h₁ (ho₁ ho) hlater hr
    refine ⟨q₂,h₂,ho₂,hp₂.trans ?_⟩
    rw [List.flatMap_cons,←List.append_assoc]
    exact hp₁.append_right _

/-- A queue in order has been handed out in order. -/
theorem View.handedOutInOrder (h : View json gatewayId s q) (ho : Ordered itemKey q) :
    HandedOutInOrder gatewayId s := by
  have hids : handedIds gatewayId s=q.out.map itemId := by
    rw [handedIds,←h.out,List.map_map]
    rfl
  have hdistinct := h.distinct
  rw [List.map_append] at hdistinct
  rw [HandedOutInOrder,hids]
  refine ⟨(List.nodup_append.mp hdistinct).1,?_⟩
  rw [List.pairwise_map]
  refine ho.out.imp_of_mem fun {a b} ha hb hle => ?_
  rintro ⟨x,hx,y,hy,hxid,hyid,hlt⟩
  obtain ⟨row,hr,_,rfl⟩ := h.stored a ha
  obtain ⟨row',hr',_,rfl⟩ := h.stored b hb
  obtain rfl := s.db.commands.eq_of_key hx hr' hxid
  obtain rfl := s.db.commands.eq_of_key hy hr hyid
  exact absurd hle (not_le.mpr hlt)

/-- Nothing has been returned by a service without calls. -/
theorem view_start (json : Jsonb J) (gatewayId : String) (db : Database J) :
    View json gatewayId (Service.start db) ⟨(pendingRows gatewayId db).map (item json),[]⟩ where
  waiting := rfl
  out := rfl
  stored := fun _ h => absurd h List.not_mem_nil
  distinct := by
    rw [List.nil_append,List.map_map]
    exact db.commands.unique.sublist (List.filter_sublist.map _)

end Queue

/-- Polls alone leave twenty commands less each time. -/
theorem length_pending_polls {rounds : List (Round J)} (hp : ∀ r∈rounds,r.isPoll=true)
    (hr : run (roundStep json gatewayId) s rounds=some t) :
    (pendingRows gatewayId t.db).length=
      (pendingRows gatewayId s.db).length-20*rounds.length := by
  induction rounds generalizing s with
  | nil =>
    cases hr
    rfl
  | cons r rounds ih =>
    obtain ⟨u,hu,hr⟩ := run_cons.mp hr
    have hrest := ih (fun r hr => hp r (List.mem_cons_of_mem _ hr)) hr
    cases r with
    | insert c => cases hp _ List.mem_cons_self
    | poll cursor outcomes =>
      obtain ⟨page,hpage,_⟩ := (poll_spec hu).1 cursor outcomes rfl
      rw [hrest,hpage.length_rest,List.length_cons]
      omega

/-- Polls that do not overlap and do not fail drain the queue of a gateway: each
returns a page of the earliest pending commands, everything is returned in
order, every command is pending or has been returned once with its stored target
and payload, and twenty commands less are pending after each poll. -/
theorem polls_drain_queue (json : Jsonb J) (db : Database J) (gatewayId : String)
    (rounds : List (Round J)) (t : Service J)
    (hl : EachStep (roundStep json gatewayId) InsertedLater (Service.start db) rounds)
    (hr : run (roundStep json gatewayId) (Service.start db) rounds=some t) :
    EachStep (roundStep json gatewayId) (PollTakesPage json gatewayId) (Service.start db) rounds ∧
      HandedOutInOrder gatewayId t ∧
      (handedIds gatewayId t++(pendingRows gatewayId t.db).map CommandRow.commandId).Nodup ∧
      (handedOut gatewayId t.returned++(pendingRows gatewayId t.db).map (cloudCommand json)).Perm
        ((pendingRows gatewayId db).map (cloudCommand json)++
          rounds.flatMap (Round.inserted json gatewayId)) ∧
      ((∀ r∈rounds,r.isPoll=true) → (pendingRows gatewayId db).length≤20*rounds.length →
        pendingRows gatewayId t.db=[]) := by
  obtain ⟨q,hview,hordered,hperm⟩ := (view_start json gatewayId db).run
    (ordered_start _) hl hr
  refine ⟨?_,hview.handedOutInOrder hordered,?_,?_,fun hp hn => ?_⟩
  · refine eachStep_of_invariant (I:=fun _ => True) (fun _ _ _ _ _ _ => trivial)
      (fun s r u _ _ hs => ?_) trivial (EachStep.trivial _ rounds)
    intro cursor outcomes he
    subst he
    exact (poll_spec hs).1 cursor outcomes rfl
  · have hdistinct := hview.distinct
    rw [hview.waiting,List.map_append,List.map_map] at hdistinct
    rw [handedIds,←hview.out,List.map_map]
    exact hdistinct
  · have hitems := hperm.map Prod.fst
    rw [List.nil_append,List.map_append,List.map_append,hview.out,hview.waiting,List.map_map,
      List.map_map,List.map_flatMap] at hitems
    simp only [Round.items_map_fst] at hitems
    exact hitems
  · have hlen := length_pending_polls hp hr
    refine List.eq_nil_of_length_eq_zero ?_
    rw [hlen]
    exact Nat.sub_eq_zero_of_le hn

/-- Two commands created at the same time, and one created later, between two polls. -/
def twoPolls : List (Round String) :=
  [.insert ⟨"c1","gw","dev","{}",some 5⟩,.insert ⟨"c2","gw","dev","0",some 5⟩,
    .poll "" (List.replicate 4 .success),.insert ⟨"c3","gw","dev","1",some 6⟩,
    .poll "" (List.replicate 3 .success)]

/-- The service after the second poll. -/
def twoPollsEnd : Service String :=
  (run (roundStep .sample "gw") (Service.start Database.empty) twoPolls).get (by decide)

/-- The queue after the two polls. -/
theorem polls_drain_queue_twoPolls : HandedOutInOrder "gw" twoPollsEnd ∧
    (handedOut "gw" twoPollsEnd.returned++
      (pendingRows "gw" twoPollsEnd.db).map (cloudCommand .sample)).Perm
        [⟨"c1","dev","{}"⟩,⟨"c2","dev","0"⟩,⟨"c3","dev","1"⟩] := by
  have h := polls_drain_queue .sample Database.empty "gw" twoPolls twoPollsEnd (by decide)
    (Option.some_get _).symm
  exact ⟨h.2.1,h.2.2.2.1⟩

example : (handedOut "gw" twoPollsEnd.returned).map CloudCommand.commandId=["c1","c2","c3"] := by
  decide

end Greenhouse.CloudCommandDrain
