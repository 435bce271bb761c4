import Greenhouse.CloudCommandDelivery
import Greenhouse.SharedQueue

/-!
# Order of the commands handed to a gateway

The polls of a gateway are readers of one shared queue: a poll takes a page
with its query and hands it out when it returns. The marking loop is what
removes the page from the queue, but its errors are discarded and nothing
keeps two polls of one gateway apart. Whenever a query runs while no waiting
command has been returned and no other poll holds it or an older one, every
command is handed out at most once and in order.
-/

namespace Greenhouse.CloudCommandOrder

open KeyedTable OrderedPage CloudDatabase CloudHandlers CloudService TemporalRuns SharedQueue
open CloudCommandDelivery

variable {J : Type}

/-- The first command was created strictly before the second. -/
def CreatedBefore (s : Service J) (a b : String) : Prop :=
  ∃ x∈s.db.commands.rows,∃ y∈s.db.commands.rows,x.commandId=a ∧ y.commandId=b ∧
    nullsLast x.createdAt<nullsLast y.createdAt

instance (s : Service J) (a b : String) : Decidable (CreatedBefore s a b) :=
  inferInstanceAs (Decidable (∃ x∈s.db.commands.rows,_))

/-- The ids in the successful CheckCommands responses to a gateway, in the
order in which the handlers have returned. -/
def handedIds (gatewayId : String) (s : Service J) : List String :=
  (handedOut gatewayId s.returned).map CloudCommand.commandId

/-- Every command is handed out at most once, and never after a command that
was created strictly later. -/
def HandedOutInOrder (gatewayId : String) (s : Service J) : Prop :=
  (handedIds gatewayId s).Nodup ∧
    (handedIds gatewayId s).Pairwise fun a b => ¬CreatedBefore s b a

instance (gatewayId : String) : DecidablePred (HandedOutInOrder (J:=J) gatewayId) := fun s =>
  inferInstanceAs (Decidable ((handedIds gatewayId s).Nodup ∧ _))

/-- The command inserted by an event. -/
def inserted : Event J → Option (NewCommand J)
  | .insertCommand c => some c
  | _ => none

/-- The commands of a gateway become visible in the order of their creation. -/
def VisibleInOrder (s : Service J) (e : Event J) (_ : Service J) : Prop :=
  ∀ c∈inserted e,∀ row∈s.db.commands.rows,row.gatewayId=c.gatewayId →
    nullsLast row.createdAt≤nullsLast c.createdAt

/-- No report puts a command back into the queue. -/
def NothingRequeued (_ : Service J) (e : Event J) (_ : Service J) : Prop :=
  ∀ r∈reported e,r.2.2≠"pending"

instance (s t : Service J) (e : Event J) : Decidable (VisibleInOrder s e t) :=
  inferInstanceAs (Decidable (∀ c∈inserted e,∀ row∈s.db.commands.rows,_))

instance (s t : Service J) (e : Event J) : Decidable (NothingRequeued s e t) :=
  inferInstanceAs (Decidable (∀ r∈reported e,r.2.2≠"pending"))

/-- The ids that a call of the gateway has read. -/
def callIds (gatewayId : String) : Option Call → List String
  | some c =>
    if c.request.gatewayId=gatewayId then c.frame.commands.map CloudCommand.commandId else []
  | none => []

/-- The commands of a gateway as a queue that its polls share. -/
def queueView (gatewayId : String) (s : Service J) : QueueView String where
  handed := handedIds gatewayId s
  reads i := callIds gatewayId (s.calls i)
  waiting id := ∃ row∈pendingRows gatewayId s.db,row.commandId=id
  before a b := Owns s gatewayId a ∧ CreatedBefore s a b

/-- A query of the gateway runs only while no waiting command has been handed
out, and no other poll of the gateway holds it or a strictly older command. -/
def PollsApart (gatewayId : String) (s : Service J) (e : Event J) (_ : Service J) : Prop :=
  ∀ i o c,e=.statement i o → s.calls i=some c →
    c.frame.next=.inl (.selectPending gatewayId) → MayTake (queueView gatewayId s) i

/-- The statuses being reported leave the queue. -/
def OpenReportsLeave (s : Service J) : Prop :=
  ∀ i c gatewayId commandId status resultJson,s.calls i=some c →
    c.request=.reportCommandResult gatewayId commandId status resultJson → status≠"pending"

variable {json : Jsonb J} {s t : Service J} {e : Event J} {gatewayId : String}

/-- Reports in progress stay reports that leave the queue. -/
theorem OpenReportsLeave.step (h : OpenReportsLeave s) (hg : NothingRequeued s e t)
    (hs : step json s e=some t) : OpenReportsLeave t := by
  intro i d gatewayId commandId status resultJson hd hq
  rcases request_of_step hs hd with ⟨c,hc,hr⟩|rfl
  · exact h i c gatewayId commandId status resultJson hc (hr.trans hq)
  · rw [hq] at hg
    exact hg _ rfl

theorem mem_callIds {c : Option Call} {id : String} (h : id∈callIds gatewayId c) :
    ∃ d,c=some d ∧ d.request.gatewayId=gatewayId ∧
      id∈d.frame.commands.map CloudCommand.commandId := by
  cases c with
  | none => exact absurd h List.not_mem_nil
  | some d =>
    by_cases hg : d.request.gatewayId=gatewayId
    · exact ⟨d,rfl,hg,by simpa only [callIds,if_pos hg] using h⟩
    · rw [callIds,if_neg hg] at h
      exact absurd h List.not_mem_nil

/-- What calls have read after one of them has been replaced. -/
theorem callIds_setCall (calls : ℕ → Option Call) (i : ℕ) (c : Option Call) :
    (fun j => callIds gatewayId (setCall calls i c j))=
      Function.update (fun j => callIds gatewayId (calls j)) i (callIds gatewayId c) := by
  funext j
  by_cases hj : j=i
  · subst hj
    rw [setCall_self,Function.update_self]
  · rw [setCall_of_ne hj,Function.update_of_ne hj]

/-- A call that keeps its request and its commands keeps what it has read. -/
theorem callIds_congr {c d : Call} (hq : d.request=c.request)
    (hc : d.frame.commands=c.frame.commands) :
    callIds gatewayId (some d)=callIds gatewayId (some c) := by
  rw [callIds,callIds,hq,hc]

/-- Creation order is a matter of the origins. -/
theorem createdBefore_iff_origin {a b : String} : CreatedBefore s a b ↔
    ∃ x∈origins s,∃ y∈origins s,x.1=a ∧ y.1=b ∧ nullsLast x.2.2<nullsLast y.2.2 := by
  simp only [CreatedBefore,origins,List.mem_map,exists_exists_and_eq_and,CommandRow.origin]

/-- Steps that keep the origins keep the order of the queue. -/
theorem before_of_origins_eq (h : origins t=origins s) {a b : String}
    (hb : (queueView gatewayId t).before a b) : (queueView gatewayId s).before a b := by
  obtain ⟨ho,hc⟩ := hb
  refine ⟨?_,?_⟩
  · rw [owns_iff_origin] at ho ⊢
    exact h ▸ ho
  · rw [createdBefore_iff_origin] at hc ⊢
    exact h ▸ hc

/-- The invariant of the shared queue of a gateway: what its polls hold and
have handed out is in order and belongs to it. -/
structure QueueKept (gatewayId : String) (s : Service J) : Prop where
  orderly : Orderly (queueView gatewayId s)
  reads : ReadsOwned s
  handed : ∀ id∈handedIds gatewayId s,Owns s gatewayId id
  reports : OpenReportsLeave s

/-- Everything read or handed out belongs to the gateway. -/
theorem QueueKept.owns (h : QueueKept gatewayId s) {b : String}
    (hb : b∈(queueView gatewayId s).handed ∨ ∃ i,b∈(queueView gatewayId s).reads i) :
    Owns s gatewayId b := by
  rcases hb with hb|⟨i,hb⟩
  · exact h.handed b hb
  · obtain ⟨d,hd,hg,hm⟩ := mem_callIds hb
    obtain ⟨cmd,hcmd,rfl⟩ := List.mem_map.mp hm
    rw [←hg]
    exact h.reads i d hd cmd hcmd

/-- The invariant gives the order of the responses. -/
theorem QueueKept.handedOutInOrder (h : QueueKept gatewayId s) : HandedOutInOrder gatewayId s :=
  ⟨h.orderly.once,h.orderly.ordered.imp_of_mem fun _ hb hn hc => hn ⟨h.handed _ hb,hc⟩⟩

/-- No statement puts a command into the queue. -/
theorem waiting_of_exec {i : ℕ} {o : Outcome} {c : Call} {st : Statement} {db : Database J}
    {rows : List (CommandRow J)} (h : OpenReportsLeave s) (hc : s.calls i=some c)
    (hn : c.frame.next=.inl st) (hx : st.exec json o s.db=some (db,rows)) {id : String}
    (hw : ∃ row∈pendingRows gatewayId db,row.commandId=id) :
    ∃ row∈pendingRows gatewayId s.db,row.commandId=id := by
  obtain ⟨row,hr,rfl⟩ := hw
  obtain ⟨hr,hg,hp⟩ := mem_pendingRows.mp hr
  rcases exec_commands hx with ⟨id,rfl,hcom⟩|⟨status,resultJson,id,gw,result,rfl,_,hcom⟩|⟨hcom,_⟩
  · rw [hcom] at hr
    obtain ⟨old,hold,he⟩ := mem_markDelivered.mp hr
    by_cases hm : old.commandId=id
    · rw [if_pos hm] at he
      rw [←he] at hp
      exact absurd hp (show "delivered"≠"pending" by decide)
    · rw [if_neg hm] at he
      subst he
      exact ⟨old,mem_pendingRows.mpr ⟨hold,hg,hp⟩,rfl⟩
  · rw [hcom] at hr
    obtain ⟨old,hold,he⟩ := mem_recordResult.mp hr
    by_cases hm : old.commandId=id ∧ old.gatewayId=gw
    · rw [if_pos hm] at he
      rw [←he] at hp
      exact absurd hp (h i c gw id status resultJson hc (c.wellFormed.of_recordResult hn).1)
    · rw [if_neg hm] at he
      subst he
      exact ⟨old,mem_pendingRows.mpr ⟨hold,hg,hp⟩,rfl⟩
  · exact ⟨row,mem_pendingRows.mpr ⟨hcom ▸ hr,hg,hp⟩,rfl⟩

/-- A query takes the earliest waiting commands. -/
theorem QueueKept.take (h : QueueKept gatewayId s) {i : ℕ} {o : Outcome} {n : ℕ} {c : Option Call}
    (hmay : MayTake (queueView gatewayId s) i)
    (hread : callIds gatewayId c=
      ((selectPending o gatewayId s.db).take n).map CommandRow.commandId) :
    Orderly (queueView gatewayId {s with calls := setCall s.calls i c}) := by
  have hview : queueView gatewayId {s with calls := setCall s.calls i c}=
      {queueView gatewayId s with
        reads := Function.update (queueView gatewayId s).reads i (callIds gatewayId c)} := by
    dsimp only [queueView]
    rw [callIds_setCall]
    rfl
  have hid : ∀ x∈s.db.commands.rows,∀ y∈s.db.commands.rows,x.commandId=y.commandId → x=y :=
    fun x hx y hy he => s.db.commands.eq_of_key hx hy he
  rw [hview,hread,selectPending,take_page]
  have hpend : ∀ {r : CommandRow J},r∈pendingRows gatewayId s.db → r∈s.db.commands.rows :=
    fun hr => (mem_pendingRows.mp hr).1
  refine h.orderly.take hmay ?_ ?_ ?_ ?_
  · exact page_nodup_map (s.db.commands.unique.sublist (List.filter_sublist.map _))
  · rw [List.pairwise_map]
    refine page_sorted.imp_of_mem fun {a b} ha hb hle hlt => ?_
    obtain ⟨_,x,hx,y,hy,hxb,hya,hlt⟩ := hlt
    rw [hid x hx b (hpend (mem_of_mem_page hb)) hxb,
      hid y hy a (hpend (mem_of_mem_page ha)) hya] at hlt
    exact absurd hle (not_le.mpr hlt)
  · intro a ha
    obtain ⟨row,hrow,rfl⟩ := List.mem_map.mp ha
    exact ⟨row,mem_of_mem_page hrow,rfl⟩
  · rintro w ⟨row,hrow,rfl⟩ hw a ha ⟨_,x,hx,y,hy,hxw,hya,hlt⟩
    obtain ⟨first,hfirst,rfl⟩ := List.mem_map.mp ha
    have hn : row∉page (fun r => nullsLast r.createdAt) (fun r => o.rank r.commandId)
        (min n 20) (pendingRows gatewayId s.db) := fun hm => hw (List.mem_map_of_mem hm)
    have hle := le_of_notMem_page hfirst hrow hn
    rw [hid x hx row (hpend hrow) hxw,hid y hy first (hpend (mem_of_mem_page hfirst)) hya] at hlt
    exact absurd hle (not_le.mpr hlt)

/-- What a returning call hands out to a gateway is what it has read for it. -/
theorem handedOut_reply {c : Call} {response : Response} (h : c.frame.next=.inr response) :
    (handedOut gatewayId [(c.request,response)]).map CloudCommand.commandId=
      callIds gatewayId (some c) := by
  obtain ⟨req,frame,hw⟩ := c
  cases hw with
  | start => cases req <;> cases h
  | insertRecords gatewayId' done todo accepted =>
    cases todo with
    | nil =>
      cases h
      simp only [handedOut,callIds,Frame.commands,List.flatMap_cons,List.flatMap_nil,
        List.append_nil,List.map_nil,ite_self]
    | cons record todo => cases h
  | markCommands gatewayId' cursor todo commands hs =>
    cases todo with
    | nil =>
      cases h
      by_cases hg : gatewayId'=gatewayId
      · simp only [handedOut,callIds,Frame.commands,Request.gatewayId,List.flatMap_cons,
          List.flatMap_nil,List.append_nil,hg,if_true]
      · simp only [handedOut,callIds,Request.gatewayId,List.flatMap_cons,List.flatMap_nil,
          List.append_nil,hg,if_false,List.map_nil]
    | cons id todo => cases h
  | returned _ reply hr =>
    cases h
    rcases hr with rfl|hr
    · cases req <;> simp only [handedOut,callIds,Frame.commands,List.flatMap_cons,
        List.flatMap_nil,List.append_nil,List.map_nil,ite_self]
    · cases req <;> simp only [Request.acknowledgement,Option.some.injEq,reduceCtorEq] at hr <;>
        simp only [handedOut,callIds,Frame.commands,List.flatMap_cons,List.flatMap_nil,
          List.append_nil,List.map_nil,ite_self]
  | recordResult | insertHealthReport | insertOtaResult | selectCommands => cases h

/-- Replacing a call by one that has read the same or nothing changes no other page. -/
theorem reads_setCall {i : ℕ} {c : Option Call}
    (h : callIds gatewayId c=callIds gatewayId (s.calls i) ∨ callIds gatewayId c=[]) (j : ℕ) :
    callIds gatewayId (setCall s.calls i c j)=callIds gatewayId (s.calls j) ∨
      callIds gatewayId (setCall s.calls i c j)=[] := by
  by_cases hj : j=i
  · subst hj
    rw [setCall_self]
    exact h
  · rw [setCall_of_ne hj]
    exact Or.inl rfl

/-- A command that becomes visible comes last in the queue. -/
theorem QueueKept.insert (h : QueueKept gatewayId s) {c : NewCommand J}
    (hv : VisibleInOrder s (.insertCommand c) t)
    (fresh : c.commandId∉s.db.commands.rows.map CommandRow.commandId) :
    Orderly (queueView gatewayId
      {s with db := {s.db with commands := s.db.commands.insertIgnore c.row}}) := by
  have hknown : ∀ {a b : String},Owns s gatewayId b →
      (queueView gatewayId
        {s with db := {s.db with commands := s.db.commands.insertIgnore c.row}}).before a b →
      (queueView gatewayId s).before a b := by
    rintro a b hb ⟨⟨row,hrow,hra,hrg⟩,x,hx,y,hy,hxa,hyb,hlt⟩
    obtain ⟨old,hold,hob,hog⟩ := hb
    have hye : y=old := Table.eq_of_key _ hy (Table.mem_insertIgnore_of_mem hold) (hyb.trans hob.symm)
    have hxe : x=row := Table.eq_of_key _ hx hrow (hxa.trans hra.symm)
    subst hye hxe
    rcases Table.mem_insertIgnore.mp hx with hx|⟨rfl,_⟩
    · exact ⟨⟨x,hx,hxa,hrg⟩,x,hx,y,hold,hxa,hyb,hlt⟩
    · exact absurd (hv c rfl y hold (hog.trans hrg.symm)) (not_le.mpr hlt)
  refine h.orderly.frame rfl (fun i => Or.inl rfl) (fun w hw => ?_)
    fun a b hb hab => hknown (h.owns hb) hab
  obtain ⟨row,hrow,rfl⟩ := hw
  obtain ⟨hrow,hg,hp⟩ := mem_pendingRows.mp hrow
  rcases Table.mem_insertIgnore.mp hrow with hrow|⟨rfl,_⟩
  · exact Or.inl ⟨row,mem_pendingRows.mpr ⟨hrow,hg,hp⟩,rfl⟩
  · refine Or.inr fun b hb hab => ?_
    obtain ⟨⟨old,hold,hid,_⟩,_⟩ := hknown (h.owns hb) hab
    exact fresh (List.mem_map.mpr ⟨old,hold,hid⟩)

/-- One step keeps the queue in order. -/
theorem QueueKept.orderly_step (h : QueueKept gatewayId s) (hv : VisibleInOrder s e t)
    (hp : PollsApart gatewayId s e t) (hs : step json s e=some t) :
    Orderly (queueView gatewayId t) := by
  cases step_transition hs with
  | request free =>
    refine h.orderly.frame rfl (reads_setCall (Or.inr ?_)) (fun w hw => Or.inl hw)
      fun a b _ hb => before_of_origins_eq rfl hb
    rw [callIds,commands_start,List.map_nil,ite_self]
  | fails call next exec =>
    refine h.orderly.frame rfl (reads_setCall (Or.inl ?_)) (fun w hw => Or.inl hw)
      fun a b _ hb => before_of_origins_eq rfl hb
    rw [call]
    exact callIds_congr rfl commands_resume_none.1
  | @executes i o c st db rows call next exec =>
    rcases commands_resume next exec with ⟨hk,_⟩|⟨cursor,n,_,hf,rfl,hr,_⟩
    · refine h.orderly.frame rfl (reads_setCall (Or.inl ?_))
        (fun w hw => Or.inl (waiting_of_exec h.reports call next exec hw))
        fun a b _ hb => before_of_origins_eq (exec_origin exec) hb
      rw [call]
      exact callIds_congr rfl hk
    · by_cases hg : c.request.gatewayId=gatewayId
      · subst hg
        refine h.take (hp i o c rfl call (by rw [hf]; rfl)) (o:=o) (n:=n) ?_
        dsimp only [callIds]
        rw [hr,List.map_map]
        exact if_pos rfl
      · refine h.orderly.frame rfl (reads_setCall (Or.inr (if_neg hg))) (fun w hw => Or.inl hw)
          fun a b _ hb => before_of_origins_eq rfl hb
  | @reply i c response call next =>
    have hview : queueView gatewayId {s with
          calls := setCall s.calls i none,returned := s.returned++[(c.request,response)]}=
        {queueView gatewayId s with
          handed := (queueView gatewayId s).handed++(queueView gatewayId s).reads i
          reads := Function.update (queueView gatewayId s).reads i []} := by
      dsimp only [queueView,handedIds]
      rw [callIds_setCall,handedOut_append,List.map_append,handedOut_reply next,call]
      rfl
    rw [hview]
    exact h.orderly.handOut i
  | receive sent => exact h.orderly
  | abort call =>
    exact h.orderly.frame rfl (reads_setCall (Or.inr rfl)) (fun w hw => Or.inl hw)
      fun a b _ hb => before_of_origins_eq rfl hb
  | insertCommand fresh => exact h.insert hv fresh

/-- What has been handed out to a gateway belongs to it. -/
theorem QueueKept.handed_step (h : QueueKept gatewayId s) (hs : step json s e=some t) :
    ∀ id∈handedIds gatewayId t,Owns t gatewayId id := by
  intro id hid
  cases step_transition hs with
  | reply call next =>
    dsimp only [handedIds] at hid
    rw [handedOut_append,List.map_append,handedOut_reply next,←call] at hid
    rcases List.mem_append.mp hid with hid|hid
    · exact (h.handed id hid).step hs
    · exact (h.owns (Or.inr ⟨_,hid⟩)).step hs
  | request | fails | executes | receive | abort | insertCommand => exact (h.handed id hid).step hs

/-- One step keeps the invariant of the shared queue. -/
theorem QueueKept.step (h : QueueKept gatewayId s)
    (hg : VisibleInOrder s e t ∧ NothingRequeued s e t ∧ PollsApart gatewayId s e t)
    (hs : step json s e=some t) : QueueKept gatewayId t :=
  ⟨h.orderly_step hg.1 hg.2.2 hs,h.reads.step hs,h.handed_step hs,h.reports.step hg.2.1 hs⟩

/-- Before the first event nothing has been read or handed out. -/
theorem queueKept_start (db : Database J) : QueueKept gatewayId (Service.start db) :=
  ⟨Orderly.of_untouched rfl fun _ => rfl,readsOwned_start db,nofun,nofun⟩

/-- Along every run whose polls stay apart, the gateway is handed every
command at most once and in the order of creation. -/
theorem handedOutInOrder_of_pollsApart (json : Jsonb J) (db : Database J) (gatewayId : String)
    (es : List (Event J))
    (hv : EachStep (step json) VisibleInOrder (Service.start db) es)
    (hq : EachStep (step json) NothingRequeued (Service.start db) es)
    (ha : EachStep (step json) (PollsApart gatewayId) (Service.start db) es) :
    EachState (step json) (HandedOutInOrder gatewayId) (Service.start db) es :=
  globally_of_invariant (I:=QueueKept gatewayId) (fun _ _ _ hi hg hs => hi.step hg hs)
    (fun _ _ hi _ => hi.handedOutInOrder) (queueKept_start db) (hv.and (hq.and ha))

/-- No waiting command has been handed out to the gateway. -/
def NoneWaitsHandedOut (gatewayId : String) (s : Service J) (_ : Event J) (_ : Service J) : Prop :=
  ∀ row∈pendingRows gatewayId s.db,row.commandId∉handedIds gatewayId s

instance (s t : Service J) (e : Event J) : Decidable (NoneWaitsHandedOut gatewayId s e t) :=
  inferInstanceAs (Decidable (∀ row∈pendingRows gatewayId s.db,_))

/-- Calls that do not overlap keep their polls apart when every command that
has been handed out has left the queue. -/
theorem pollsApart_of_oneAtATime {es : List (Event J)} {db : Database J}
    (h : EachStep (step json) OneAtATime (Service.start db) es)
    (hw : EachStep (step json) (NoneWaitsHandedOut gatewayId) (Service.start db) es) :
    EachStep (step json) (PollsApart gatewayId) (Service.start db) es := by
  refine eachStep_of_invariant (I:=AtMostOneCall) (fun _ _ _ hi hg hs => hi.step hg.1 hs)
    (fun s e t hi hg _ => ?_) nofun (h.and hw)
  rintro i o c rfl hc _ w ⟨row,hrow,rfl⟩
  refine ⟨hg.2 row hrow,fun j hj b hb => ?_⟩
  obtain ⟨d,hd,_,_⟩ := mem_callIds hb
  exact absurd ((hi j d hd).trans (hi i c hc).symm) hj

/-- Two polls in turn, the second after a newer command has been inserted. -/
def orderedRun : List (Event String) :=
  [.insertCommand ⟨"on","gw","dev","1",some 5⟩,.request 0 (.checkCommands "gw" ""),
    .statement 0 .success,.statement 0 .success,.statement 0 .success,.reply 0,
    .insertCommand ⟨"off","gw","dev","0",some 6⟩,.request 0 (.checkCommands "gw" ""),
    .statement 0 .success,.statement 0 .success,.statement 0 .success,.reply 0]

/-- The condition is met by the two polls in turn. -/
theorem handedOutInOrder_orderedRun :
    EachState (step .sample) (HandedOutInOrder "gw") (Service.start Database.empty) orderedRun :=
  handedOutInOrder_of_pollsApart .sample Database.empty "gw" orderedRun (by decide) (by decide)
    (pollsApart_of_oneAtATime (by decide) (by decide))

/-- Two polls in turn, where the update of the first one fails. -/
def repeatedRun : List (Event String) :=
  [.insertCommand ⟨"on","gw","dev","1",some 5⟩,.request 0 (.checkCommands "gw" ""),
    .statement 0 .success,.statement 0 .success,.statement 0 .failure,.reply 0,
    .request 0 (.checkCommands "gw" ""),.statement 0 .success,.statement 0 .success,
    .statement 0 .success,.reply 0]

/-- The failed update is ignored and the command is handed out again. -/
theorem command_handed_out_twice :
    EachStep (step .sample) VisibleInOrder (Service.start Database.empty) repeatedRun ∧
      EachStep (step .sample) NothingRequeued (Service.start Database.empty) repeatedRun ∧
      ¬EachState (step .sample) (HandedOutInOrder "gw") (Service.start Database.empty)
        repeatedRun := by
  refine ⟨?_,?_,?_⟩ <;> decide

end Greenhouse.CloudCommandOrder
