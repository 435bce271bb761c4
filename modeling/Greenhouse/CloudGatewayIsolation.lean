import Greenhouse.CloudService

/-!
# Isolation of gateways

What a gateway can see is the rows that carry its id and the responses to its
requests. A statement of another gateway leaves these rows alone: every
statement names its gateway, except the one that marks a command delivered,
whose command was read by a query for the gateway of the call. Deleting all
requests of the other gateways therefore changes nothing for a gateway.
-/

namespace Greenhouse.CloudGatewayIsolation

open KeyedTable CloudDatabase CloudHandlers CloudService TemporalRuns

variable {J : Type}

/-- The gateway a statement names in its parameters. -/
def namedGateway : Statement → Option String
  | .upsertGateway gatewayId _ => some gatewayId
  | .touchGateway gatewayId => some gatewayId
  | .insertTelemetry gatewayId _ => some gatewayId
  | .selectPending gatewayId => some gatewayId
  | .markDelivered _ => none
  | .recordResult _ _ _ gatewayId => some gatewayId
  | .insertHealthReport gatewayId _ => some gatewayId
  | .insertOtaResult gatewayId _ _ _ _ => some gatewayId

/-- The rows that carry a gateway id are the same in both databases, and the
same command ids are taken. -/
structure SameFor (g : String) (db db' : Database J) : Prop where
  gateways : db.gateways.slice (fun r => decide (r.gatewayId=g))=
    db'.gateways.slice fun r => decide (r.gatewayId=g)
  telemetry : db.telemetry.slice (fun r => decide (r.gatewayId=g))=
    db'.telemetry.slice fun r => decide (r.gatewayId=g)
  commands : db.commands.slice (fun r => decide (r.gatewayId=g))=
    db'.commands.slice fun r => decide (r.gatewayId=g)
  healthReports : db.healthReports.filter (fun r => decide (r.gatewayId=g))=
    db'.healthReports.filter fun r => decide (r.gatewayId=g)
  otaResults : db.otaResults.filter (fun r => decide (r.gatewayId=g))=
    db'.otaResults.filter fun r => decide (r.gatewayId=g)
  commandIds : db.commands.rows.map CommandRow.commandId=db'.commands.rows.map CommandRow.commandId

theorem SameFor.refl (g : String) (db : Database J) : SameFor g db db := ⟨rfl,rfl,rfl,rfl,rfl,rfl⟩

theorem SameFor.trans {g : String} {a b c : Database J} (h : SameFor g a b) (h' : SameFor g b c) :
    SameFor g a c :=
  ⟨h.gateways.trans h'.gateways,h.telemetry.trans h'.telemetry,h.commands.trans h'.commands,
    h.healthReports.trans h'.healthReports,h.otaResults.trans h'.otaResults,
    h.commandIds.trans h'.commandIds⟩

section Statements

variable {json : Jsonb J} {o : Outcome} {g : String} {db db' db₁ : Database J}
  {rows : List (CommandRow J)} {st : Statement}

/-- Whether a statement fails does not depend on the stored rows. -/
theorem exec_eq_none_congr (h : st.exec json o db=none) : st.exec json o db'=none := by
  cases st with
  | insertTelemetry gatewayId record =>
    simp only [Statement.exec,ite_eq_left_iff,Option.map_eq_none_iff] at h ⊢
    exact h
  | recordResult _ _ _ _ | insertHealthReport _ _ =>
    simp only [Statement.exec,ite_eq_right_iff,Option.map_eq_none_iff] at h ⊢
    exact h
  | upsertGateway _ _ | touchGateway _ | selectPending _ | markDelivered _
  | insertOtaResult _ _ _ _ _ =>
    simp only [Statement.exec,ite_eq_right_iff,reduceCtorEq,imp_false] at h ⊢
    exact h

/-- The pending commands of a gateway are among the rows that carry its id. -/
theorem pendingRows_congr (h : SameFor g db db') : pendingRows g db=pendingRows g db' := by
  have hs : ∀ db : Database J,pendingRows g db=
      (db.commands.slice fun r => decide (r.gatewayId=g)).filter fun r => decide (r.status="pending") := by
    intro db
    rw [Table.slice,List.filter_filter]
    exact List.filter_congr fun r _ => Bool.and_comm _ _
  rw [hs,hs,h.commands]

/-- A statement that names the gateway, or no gateway, does the same to the
rows of the gateway and returns the same rows. -/
theorem exec_own (hst : ∀ gatewayId,namedGateway st=some gatewayId → gatewayId=g)
    (h : SameFor g db db') (hx : st.exec json o db=some (db₁,rows)) :
    ∃ db₁',st.exec json o db'=some (db₁',rows) ∧ SameFor g db₁ db₁' := by
  cases st with
  | upsertGateway gatewayId softwareVersion =>
    obtain rfl := hst gatewayId rfl
    simp only [Statement.exec,Option.ite_none_right_eq_some,Option.some.injEq,Prod.mk.injEq] at hx
    obtain ⟨hok,rfl,rfl⟩ := hx
    refine ⟨_,if_pos hok,{h with gateways := ?_}⟩
    exact Table.slice_insertOrUpdate_congr (fun _ => rfl) (fun _ ha => decide_eq_true ha) h.gateways
  | touchGateway gatewayId =>
    simp only [Statement.exec,Option.ite_none_right_eq_some,Option.some.injEq,Prod.mk.injEq] at hx
    obtain ⟨hok,rfl,rfl⟩ := hx
    refine ⟨_,if_pos hok,{h with gateways := ?_}⟩
    apply Table.slice_updateWhere_congr
    exacts [fun _ => rfl,fun _ => rfl,h.gateways]
  | insertTelemetry gatewayId record =>
    obtain rfl := hst gatewayId rfl
    simp only [Statement.exec,Option.ite_none_left_eq_some,Option.map_eq_some_iff,
      Prod.mk.injEq] at hx
    obtain ⟨hf,row,hrow,rfl,rfl⟩ := hx
    refine ⟨{db' with telemetry := db'.telemetry.insertIgnore row},?_,{h with telemetry := ?_}⟩
    · rw [Statement.exec,if_neg hf,hrow]
      rfl
    · obtain ⟨_,_,_,_,_,rfl⟩ := telemetryRow_eq_some.mp hrow
      exact Table.slice_insertIgnore_congr (fun _ ha => decide_eq_true (Prod.mk.inj ha).1) h.telemetry
  | selectPending gatewayId =>
    obtain rfl := hst gatewayId rfl
    simp only [Statement.exec,Option.ite_none_right_eq_some,Option.some.injEq,Prod.mk.injEq] at hx
    obtain ⟨hok,rfl,rfl⟩ := hx
    refine ⟨db',?_,h⟩
    rw [Statement.exec,if_pos hok,CloudDatabase.selectPending,CloudDatabase.selectPending,
      pendingRows_congr h]
  | markDelivered id =>
    simp only [Statement.exec,Option.ite_none_right_eq_some,Option.some.injEq,Prod.mk.injEq] at hx
    obtain ⟨hok,rfl,rfl⟩ := hx
    refine ⟨_,if_pos hok,{h with commands := ?_,commandIds := ?_}⟩
    · apply Table.slice_updateWhere_congr
      exacts [fun _ => rfl,fun _ => rfl,h.commands]
    · dsimp only
      rw [commandId_markDelivered,commandId_markDelivered]
      exact h.commandIds
  | recordResult status resultJson id gatewayId =>
    simp only [Statement.exec,Option.ite_none_right_eq_some,Option.map_eq_some_iff,
      Prod.mk.injEq] at hx
    obtain ⟨hok,result,hr,rfl,rfl⟩ := hx
    refine ⟨{db' with commands :=
      CloudDatabase.recordResult o.now status result id gatewayId db'.commands},?_,
      {h with commands := ?_,commandIds := ?_}⟩
    · rw [Statement.exec,if_pos hok,hr]
      rfl
    · apply Table.slice_updateWhere_congr
      exacts [fun _ => rfl,fun _ => rfl,h.commands]
    · dsimp only
      rw [commandId_recordResult,commandId_recordResult]
      exact h.commandIds
  | insertHealthReport gatewayId payloadJson =>
    simp only [Statement.exec,Option.ite_none_right_eq_some,Option.map_eq_some_iff,
      Prod.mk.injEq] at hx
    obtain ⟨hok,payload,hp,rfl,rfl⟩ := hx
    refine ⟨{db' with healthReports := db'.healthReports++[⟨gatewayId,payload,some o.now⟩]},?_,
      {h with healthReports := ?_}⟩
    · rw [Statement.exec,if_pos hok,hp]
      rfl
    · dsimp only
      rw [List.filter_append,List.filter_append,h.healthReports]
  | insertOtaResult gatewayId updateId targetVersion status detail =>
    simp only [Statement.exec,Option.ite_none_right_eq_some,Option.some.injEq,Prod.mk.injEq] at hx
    obtain ⟨hok,rfl,rfl⟩ := hx
    refine ⟨_,if_pos hok,{h with otaResults := ?_}⟩
    dsimp only
    rw [List.filter_append,List.filter_append,h.otaResults]

/-- Appending a row of another gateway does not show. -/
theorem filter_append_foreign {α : Type} {gatewayId : α → String} {xs : List α} {x : α}
    (h : gatewayId x≠g) : (xs++[x]).filter (fun r => decide (gatewayId r=g))=
      xs.filter fun r => decide (gatewayId r=g) := by
  rw [List.filter_append,List.filter_singleton,decide_eq_false h,cond_false,List.append_nil]

/-- A statement that names another gateway, or marks a command of another
gateway, leaves the rows of the gateway alone. -/
theorem exec_foreign (hst : ∀ gatewayId,namedGateway st=some gatewayId → gatewayId≠g)
    (hm : ∀ id,st=.markDelivered id → ∀ row∈db.commands.rows,row.commandId=id → row.gatewayId≠g)
    (hx : st.exec json o db=some (db₁,rows)) : SameFor g db₁ db := by
  cases st with
  | upsertGateway gatewayId softwareVersion =>
    have hne := hst gatewayId rfl
    simp only [Statement.exec,Option.ite_none_right_eq_some,Option.some.injEq,Prod.mk.injEq] at hx
    obtain ⟨_,rfl,_⟩ := hx
    refine {SameFor.refl g db with gateways := ?_}
    exact Table.slice_insertOrUpdate_of_not (fun _ => rfl) fun a ha =>
      decide_eq_false fun he => hne (ha.symm.trans he)
  | touchGateway gatewayId =>
    have hne := hst gatewayId rfl
    simp only [Statement.exec,Option.ite_none_right_eq_some,Option.some.injEq,Prod.mk.injEq] at hx
    obtain ⟨_,rfl,_⟩ := hx
    refine {SameFor.refl g db with gateways := ?_}
    apply Table.slice_updateWhere_of_disjoint
    · exact fun _ => rfl
    · exact fun _ => rfl
    · intro r _ hr
      exact decide_eq_false fun he => hne (he.symm.trans (of_decide_eq_true hr))
  | insertTelemetry gatewayId record =>
    have hne := hst gatewayId rfl
    simp only [Statement.exec,Option.ite_none_left_eq_some,Option.map_eq_some_iff,
      Prod.mk.injEq] at hx
    obtain ⟨_,row,hrow,rfl,_⟩ := hx
    obtain ⟨_,_,_,_,_,rfl⟩ := telemetryRow_eq_some.mp hrow
    refine {SameFor.refl g db with telemetry := ?_}
    exact Table.slice_insertIgnore_of_not (decide_eq_false hne)
  | selectPending gatewayId =>
    simp only [Statement.exec,Option.ite_none_right_eq_some,Option.some.injEq,Prod.mk.injEq] at hx
    obtain ⟨_,rfl,_⟩ := hx
    exact SameFor.refl g db
  | markDelivered id =>
    simp only [Statement.exec,Option.ite_none_right_eq_some,Option.some.injEq,Prod.mk.injEq] at hx
    obtain ⟨_,rfl,_⟩ := hx
    refine {SameFor.refl g db with commands := ?_,commandIds := commandId_markDelivered}
    apply Table.slice_updateWhere_of_disjoint
    · exact fun _ => rfl
    · exact fun _ => rfl
    · intro r hr hg
      exact decide_eq_false fun he => hm id rfl r hr he (of_decide_eq_true hg)
  | recordResult status resultJson id gatewayId =>
    have hne := hst gatewayId rfl
    simp only [Statement.exec,Option.ite_none_right_eq_some,Option.map_eq_some_iff,
      Prod.mk.injEq] at hx
    obtain ⟨_,result,_,rfl,_⟩ := hx
    refine {SameFor.refl g db with commands := ?_,commandIds := commandId_recordResult}
    apply Table.slice_updateWhere_of_disjoint
    · exact fun _ => rfl
    · exact fun _ => rfl
    · intro r _ hg
      have hr : decide (r.gatewayId=gatewayId)=false :=
        decide_eq_false fun he => hne (he.symm.trans (of_decide_eq_true hg))
      rw [hr,Bool.and_false]
  | insertHealthReport gatewayId payloadJson =>
    have hne := hst gatewayId rfl
    simp only [Statement.exec,Option.ite_none_right_eq_some,Option.map_eq_some_iff,
      Prod.mk.injEq] at hx
    obtain ⟨_,payload,_,rfl,_⟩ := hx
    exact {SameFor.refl g db with healthReports := filter_append_foreign hne}
  | insertOtaResult gatewayId updateId targetVersion status detail =>
    have hne := hst gatewayId rfl
    simp only [Statement.exec,Option.ite_none_right_eq_some,Option.some.injEq,Prod.mk.injEq] at hx
    obtain ⟨_,rfl,_⟩ := hx
    exact {SameFor.refl g db with otaResults := filter_append_foreign hne}

end Statements

/-- The event concerns a request of the gateway, or no request. -/
def keeps (g : String) (s : Service J) : Event J → Bool
  | .request _ req => decide (req.gatewayId=g)
  | .statement i _ | .reply i | .abort i =>
    match s.calls i with
    | some c => decide (c.request.gatewayId=g)
    | none => false
  | .receive x => decide (x.1.gatewayId=g)
  | .insertCommand _ => true

/-- The run without the requests of the other gateways. -/
def withoutOthers (json : Jsonb J) (g : String) : Service J → List (Event J) → List (Event J) :=
  restrict (step json) (keeps g)

/-- The calls of the gateway alone. -/
def ownCalls (g : String) (calls : ℕ → Option Call) (i : ℕ) : Option Call :=
  (calls i).filter fun c => decide (c.request.gatewayId=g)

/-- The responses to the gateway. -/
def responsesTo (g : String) (responses : List (Request×Response)) : List (Request×Response) :=
  responses.filter fun x => decide (x.1.gatewayId=g)

/-- The second service has the rows, calls and responses of the gateway, and
no other calls and responses. -/
structure Isolated (g : String) (s s' : Service J) : Prop where
  reads : ReadsOwned s
  db : SameFor g s.db s'.db
  calls : s'.calls=ownCalls g s.calls
  returned : s'.returned=responsesTo g s.returned
  received : s'.received=responsesTo g s.received

variable {json : Jsonb J} {g : String} {s t s' : Service J} {e : Event J}

/-- Replacing a call replaces it among the calls of the gateway. -/
theorem ownCalls_setCall {calls : ℕ → Option Call} {i : ℕ} {c : Option Call} :
    ownCalls g (setCall calls i c)=
      setCall (ownCalls g calls) i (c.filter fun c => decide (c.request.gatewayId=g)) := by
  funext j
  by_cases hj : j=i
  · subst hj
    simp only [ownCalls,setCall_self]
  · simp only [ownCalls,setCall_of_ne hj]

/-- Replacing a call that does not show leaves the calls of the gateway alone. -/
theorem ownCalls_setCall_foreign {calls : ℕ → Option Call} {i : ℕ} {c : Option Call}
    (h : (calls i).filter (fun c => decide (c.request.gatewayId=g))=none)
    (hc : c.filter (fun c => decide (c.request.gatewayId=g))=none) :
    ownCalls g (setCall calls i c)=ownCalls g calls := by
  funext j
  rw [ownCalls_setCall,hc]
  by_cases hj : j=i
  · subst hj
    rw [setCall_self]
    exact h.symm
  · rw [setCall_of_ne hj]

/-- A call of the gateway shows. -/
theorem filter_own {c : Call} (hg : c.request.gatewayId=g) :
    (some c).filter (fun c => decide (c.request.gatewayId=g))=some c := by
  rw [Option.filter_some,if_pos (decide_eq_true hg)]

theorem ownCalls_eq_some {calls : ℕ → Option Call} {i : ℕ} {c : Call} (h : calls i=some c)
    (hg : c.request.gatewayId=g) : ownCalls g calls i=some c := by
  rw [ownCalls,h,filter_own hg]

/-- A call of another gateway does not show. -/
theorem filter_foreign {c : Call} (hg : c.request.gatewayId≠g) :
    (some c).filter (fun c => decide (c.request.gatewayId=g))=none := by
  rw [Option.filter_some,decide_eq_false hg]
  rfl

theorem responsesTo_append_own {xs : List (Request×Response)} {x : Request×Response}
    (h : x.1.gatewayId=g) : responsesTo g (xs++[x])=responsesTo g xs++[x] := by
  rw [responsesTo,List.filter_append,List.filter_singleton,decide_eq_true h,cond_true]
  rfl

theorem responsesTo_append_foreign {xs : List (Request×Response)} {x : Request×Response}
    (h : x.1.gatewayId≠g) : responsesTo g (xs++[x])=responsesTo g xs := by
  rw [responsesTo,List.filter_append,List.filter_singleton,decide_eq_false h,cond_false,
    List.append_nil]
  rfl

/-- The statement of a call names the gateway of its request, or none. -/
theorem namedGateway_next {req : Request} {f : Frame} {st : Statement} (h : FrameOf req f)
    (hn : f.next=.inl st) {gatewayId : String} (hg : namedGateway st=some gatewayId) :
    gatewayId=req.gatewayId := by
  cases h with
  | start =>
    cases req <;> cases hn <;> exact (Option.some.inj hg).symm
  | insertRecords gatewayId' done todo accepted =>
    cases todo <;> cases hn
    exact (Option.some.inj hg).symm
  | markCommands gatewayId' cursor todo commands hs =>
    cases todo <;> cases hn
    cases hg
  | recordResult | insertHealthReport | insertOtaResult | selectCommands =>
    cases hn
    exact (Option.some.inj hg).symm
  | returned => cases hn

/-- The call of a kept event is in progress without the other gateways as well. -/
theorem Isolated.own_call {i : ℕ} {c : Call} (h : Isolated g s s') (call : s.calls i=some c)
    (hk : keeps g s (.abort i)=true) : c.request.gatewayId=g ∧ s'.calls i=some c := by
  have hg : c.request.gatewayId=g := by
    dsimp only [keeps] at hk
    rw [call] at hk
    exact of_decide_eq_true hk
  exact ⟨hg,h.calls ▸ ownCalls_eq_some call hg⟩

/-- An executed event of the gateway is possible without the other gateways,
and does the same to what the gateway sees. -/
theorem Isolated.keep (h : Isolated g s s') (hs : step json s e=some t) (hk : keeps g s e=true) :
    ∃ t',step json s' e=some t' ∧ Isolated g t t' := by
  have hreads := h.reads.step hs
  cases step_transition hs with
  | @request i req free =>
    have hg : req.gatewayId=g := of_decide_eq_true hk
    have hfree : s'.calls i=none := by
      rw [h.calls,ownCalls,free]
      rfl
    refine ⟨_,Transition.step (.request hfree),{h with reads := hreads,calls := ?_}⟩
    dsimp only
    rw [h.calls,ownCalls_setCall]
    exact congrArg (setCall _ i) (Eq.symm (filter_own hg))
  | @fails i o c st call next exec =>
    obtain ⟨hg,hcall⟩ := h.own_call call hk
    refine ⟨_,Transition.step (.fails hcall next (exec_eq_none_congr exec)),
      {h with reads := hreads,calls := ?_}⟩
    dsimp only
    rw [h.calls,ownCalls_setCall]
    exact congrArg (setCall _ i) (Eq.symm (filter_own hg))
  | @executes i o c st db rows call next exec =>
    obtain ⟨hg,hcall⟩ := h.own_call call hk
    obtain ⟨db',hx,hsame⟩ := exec_own
      (fun gatewayId hn => (namedGateway_next c.wellFormed next hn).trans hg) h.db exec
    refine ⟨_,Transition.step (.executes hcall next hx),
      {h with reads := hreads,db := hsame,calls := ?_}⟩
    dsimp only
    rw [h.calls,ownCalls_setCall]
    exact congrArg (setCall _ i) (Eq.symm (filter_own hg))
  | @reply i c response call next =>
    obtain ⟨hg,hcall⟩ := h.own_call call hk
    refine ⟨_,Transition.step (.reply hcall next),
      {h with reads := hreads,calls := ?_,returned := ?_}⟩
    · dsimp only
      rw [h.calls,ownCalls_setCall]
      rfl
    · dsimp only
      rw [h.returned]
      exact Eq.symm (responsesTo_append_own hg)
  | @receive x sent =>
    have hsent : x∈s'.returned := by
      rw [h.returned]
      exact List.mem_filter.mpr ⟨sent,hk⟩
    refine ⟨_,Transition.step (.receive hsent),{h with reads := hreads,received := ?_}⟩
    dsimp only
    rw [h.received]
    exact Eq.symm (responsesTo_append_own (of_decide_eq_true hk))
  | @abort i c call =>
    obtain ⟨hg,hcall⟩ := h.own_call call hk
    refine ⟨_,Transition.step (.abort hcall),{h with reads := hreads,calls := ?_}⟩
    dsimp only
    rw [h.calls,ownCalls_setCall]
    rfl
  | @insertCommand c fresh =>
    have hfresh : c.commandId∉s'.db.commands.rows.map CommandRow.commandId := h.db.commandIds ▸ fresh
    refine ⟨_,Transition.step (.insertCommand hfresh),
      {h with reads := hreads,db := {h.db with commands := ?_,commandIds := ?_}}⟩
    · dsimp only
      rw [Table.slice_insertIgnore_of_notMem fresh,Table.slice_insertIgnore_of_notMem hfresh,
        h.db.commands]
    · dsimp only
      rw [Table.rows_insertIgnore_of_notMem fresh,Table.rows_insertIgnore_of_notMem hfresh,
        List.map_append,List.map_append,h.db.commandIds]

/-- An executed event of another gateway does not show. -/
theorem Isolated.drop (h : Isolated g s s') (hs : step json s e=some t) (hk : keeps g s e=false) :
    Isolated g t s' := by
  have hreads := h.reads.step hs
  have hforeign : ∀ i c,s.calls i=some c → keeps g s e=decide (c.request.gatewayId=g) →
      c.request.gatewayId≠g ∧
        (s.calls i).filter (fun c => decide (c.request.gatewayId=g))=none := by
    intro i c hc he
    have hne : c.request.gatewayId≠g := of_decide_eq_false (he.symm.trans hk)
    exact ⟨hne,hc ▸ filter_foreign hne⟩
  cases step_transition hs with
  | @request i req free =>
    have hne : req.gatewayId≠g := of_decide_eq_false hk
    refine {h with reads := hreads,calls := ?_}
    have hnone : (s.calls i).filter (fun c => decide (c.request.gatewayId=g))=none := by
      rw [free]
      rfl
    exact h.calls.trans (Eq.symm (ownCalls_setCall_foreign hnone (filter_foreign hne)))
  | @fails i o c st call next exec =>
    obtain ⟨hne,hnone⟩ := hforeign i c call (by simp only [keeps,call])
    refine {h with reads := hreads,calls := ?_}
    exact h.calls.trans (Eq.symm (ownCalls_setCall_foreign hnone (filter_foreign hne)))
  | @executes i o c st db rows call next exec =>
    obtain ⟨hne,hnone⟩ := hforeign i c call (by simp only [keeps,call])
    refine {h with reads := hreads,db := ?_,calls := ?_}
    · refine (exec_foreign (fun gatewayId hn => ?_) (fun id hid row hr he => ?_) exec).trans h.db
      · rw [namedGateway_next c.wellFormed next hn]
        exact hne
      · subst hid
        have hid := c.wellFormed.todo_suffix.subset (c.wellFormed.mem_todo next)
        obtain ⟨cmd,hcmd,hcid⟩ := List.mem_map.mp hid
        rw [(h.reads i c call cmd hcmd).gateway_eq hr (he.trans hcid.symm)]
        exact hne
    · exact h.calls.trans (Eq.symm (ownCalls_setCall_foreign hnone (filter_foreign hne)))
  | @reply i c response call next =>
    obtain ⟨hne,hnone⟩ := hforeign i c call (by simp only [keeps,call])
    refine {h with reads := hreads,calls := ?_,returned := ?_}
    · exact h.calls.trans (Eq.symm (ownCalls_setCall_foreign hnone rfl))
    · exact h.returned.trans (Eq.symm (responsesTo_append_foreign hne))
  | @receive x sent =>
    refine {h with reads := hreads,received := ?_}
    exact h.received.trans (Eq.symm (responsesTo_append_foreign (of_decide_eq_false hk)))
  | @abort i c call =>
    obtain ⟨hne,hnone⟩ := hforeign i c call (by simp only [keeps,call])
    refine {h with reads := hreads,calls := ?_}
    exact h.calls.trans (Eq.symm (ownCalls_setCall_foreign hnone rfl))
  | insertCommand fresh => cases hk

/-- Deleting every request of the other gateways from a run leaves a run that
gives the gateway the same rows and the same responses. -/
theorem isolated_run (json : Jsonb J) (db : Database J) (g : String) (es : List (Event J))
    (t : Service J) (hr : run (step json) (Service.start db) es=some t) :
    ∃ t',run (step json) (Service.start db) (withoutOthers json g (Service.start db) es)=some t' ∧
      SameFor g t.db t'.db ∧ t'.returned=responsesTo g t.returned ∧
      t'.received=responsesTo g t.received := by
  have hstart : Isolated g (Service.start db) (Service.start db) :=
    ⟨readsOwned_start db,SameFor.refl g db,rfl,rfl,rfl⟩
  have hkeep : ∀ a e b a',Isolated g a a' → True → step json a e=some b → keeps g a e=true →
      ∃ b',step json a' e=some b' ∧ Isolated g b b' := fun _ _ _ _ h _ hs hk => h.keep hs hk
  have hdrop : ∀ a e b a',Isolated g a a' → True → step json a e=some b → keeps g a e=false →
      Isolated g b a' := fun _ _ _ _ h _ hs hk => h.drop hs hk
  obtain ⟨t',hr',h⟩ := run_restrict (G:=fun _ _ _ => True) hkeep hdrop hstart
    (EachStep.trivial _ _) hr
  exact ⟨t',hr',h.db,h.returned,h.received⟩

/-- Two gateways upload a record with one local id, and one of them reports a
result for the command of the other. -/
def sharedIdsRun : List (Event String) :=
  [.insertCommand ⟨"c1","a","dev","{}",some 5⟩,.request 0 (.uploadTelemetry "a" [⟨0,"dev",1,"0"⟩]),
    .request 1 (.uploadTelemetry "b" [⟨0,"dev",2,"1"⟩]),.statement 1 .success,.statement 1 .success,
    .statement 0 .success,.statement 0 .success,.reply 0,.reply 1,
    .request 1 (.reportCommandResult "b" "c1" "done" "{}"),.request 0 (.checkCommands "a" ""),
    .statement 1 .success,.statement 1 .success,.statement 0 .success,.statement 0 .success,
    .statement 0 .success,.reply 1,.reply 0]

/-- Without the other gateway the first one gets the same two responses. -/
theorem isolated_run_sharedIdsRun :
    ∃ t t',run (step .sample) (Service.start Database.empty) sharedIdsRun=some t ∧
      run (step .sample) (Service.start Database.empty)
        (withoutOthers .sample "a" (Service.start Database.empty) sharedIdsRun)=some t' ∧
      SameFor "a" t.db t'.db ∧ t'.returned=responsesTo "a" t.returned := by
  obtain ⟨t',hr',hdb,hret,_⟩ :=
    isolated_run .sample Database.empty "a" sharedIdsRun _ rfl
  exact ⟨_,t',rfl,hr',hdb,hret⟩

end Greenhouse.CloudGatewayIsolation
