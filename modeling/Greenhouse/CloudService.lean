import Greenhouse.CloudHandlers
import Greenhouse.TemporalRuns

/-!
# The cloud service as an interleaving of statements

Any number of calls is in progress at once; a step runs one statement of one
call, or starts, ends or aborts a call. A returned response may reach its
gateway later or never. Commands are inserted by a party outside the service.
Every reachable call is in a frame of its request, which the call carries as a
field, and it marks only commands that belong to its gateway.
-/

namespace Greenhouse.CloudService

open KeyedTable CloudDatabase CloudHandlers TemporalRuns

/-- A call in progress: its request and a frame this request can be in. -/
structure Call where
  request : Request
  frame : Frame
  /-- The frame is one of the handler of the request. -/
  wellFormed : FrameOf request frame

/-- A call at its first statement. -/
def Call.start (req : Request) : Call := ⟨req,req.handler,.start req⟩

variable {J : Type}

/-- Continue a call with the answer to its statement. -/
def Call.resume (json : Jsonb J) (answer : Option (List (CommandRow J)×Fetch)) (c : Call) : Call :=
  ⟨c.request,c.frame.resume json answer,c.wellFormed.resume⟩

/-- The columns that an insertion of a command from outside sets; the other
columns take their defaults. -/
structure NewCommand (J : Type) where
  commandId : String
  gatewayId : String
  targetDeviceId : String
  payload : J
  createdAt : Option Timestamp

/-- The inserted row, with the default status. -/
def NewCommand.row (c : NewCommand J) : CommandRow J :=
  ⟨c.commandId,c.gatewayId,c.targetDeviceId,c.payload,"pending",c.createdAt,none,none,none⟩

/-- The service, its calls in progress and the responses so far. -/
structure Service (J : Type) where
  db : Database J
  /-- Calls in progress, by number. -/
  calls : ℕ → Option Call
  /-- Requests whose handler has returned, with the response, in that order. -/
  returned : List (Request×Response)
  /-- Responses that have reached their gateway. -/
  received : List (Request×Response)

/-- A service without calls over a given database. -/
def Service.start (db : Database J) : Service J := ⟨db,fun _ => none,[],[]⟩

/-- The steps of the service and of its surroundings. -/
inductive Event (J : Type)
  /-- A request arrives and is given a free number. -/
  | request (i : ℕ) (req : Request)
  /-- A call runs its next statement. -/
  | statement (i : ℕ) (o : Outcome)
  /-- A handler returns and its response is sent. -/
  | reply (i : ℕ)
  /-- A response reaches its gateway. -/
  | receive (x : Request×Response)
  /-- A call is lost together with its local variables. -/
  | abort (i : ℕ)
  /-- A command is inserted from outside. -/
  | insertCommand (c : NewCommand J)

/-- Replace the call with one number. -/
def setCall (calls : ℕ → Option Call) (i : ℕ) (c : Option Call) : ℕ → Option Call :=
  fun j => if j=i then c else calls j

@[simp] theorem setCall_self (calls : ℕ → Option Call) (i : ℕ) (c : Option Call) :
    setCall calls i c i=c := if_pos rfl

theorem setCall_of_ne {calls : ℕ → Option Call} {i j : ℕ} {c : Option Call} (h : j≠i) :
    setCall calls i c j=calls j := if_neg h

/-- A call found after a replacement is the new one or an old one. -/
theorem setCall_eq_some {calls : ℕ → Option Call} {i j : ℕ} {c : Option Call} {d : Call} :
    setCall calls i c j=some d ↔ (j=i ∧ c=some d) ∨ (j≠i ∧ calls j=some d) := by
  by_cases h : j=i
  · subst h
    simp only [setCall_self,true_and,ne_eq,not_true_eq_false,false_and,or_false]
  · simp only [setCall_of_ne h,h,false_and,ne_eq,not_false_eq_true,true_and,false_or]

/-- The database after a statement and the answer to the call. -/
def runStatement (json : Jsonb J) (o : Outcome) (db : Database J) (st : Statement) :
    Database J×Option (List (CommandRow J)×Fetch) :=
  match st.exec json o db with
  | some (db',rows) => (db',some (rows,o.fetch))
  | none => (db,none)

/-- One step of the service; none when the event is not possible. -/
def step (json : Jsonb J) (s : Service J) : Event J → Option (Service J)
  | .request i req =>
    match s.calls i with
    | none => some {s with calls := setCall s.calls i (some (.start req))}
    | some _ => none
  | .statement i o =>
    match s.calls i with
    | none => none
    | some c =>
      match c.frame.next with
      | .inr _ => none
      | .inl st =>
        let (db,answer) := runStatement json o s.db st
        some {s with db := db,calls := setCall s.calls i (some (c.resume json answer))}
  | .reply i =>
    match s.calls i with
    | none => none
    | some c =>
      match c.frame.next with
      | .inl _ => none
      | .inr response =>
        some {s with
          calls := setCall s.calls i none,returned := s.returned++[(c.request,response)]}
  | .receive x => if x∈s.returned then some {s with received := s.received++[x]} else none
  | .abort i =>
    match s.calls i with
    | none => none
    | some _ => some {s with calls := setCall s.calls i none}
  | .insertCommand c =>
    if c.commandId∈s.db.commands.rows.map CommandRow.commandId then none
    else some {s with db := {s.db with commands := s.db.commands.insertIgnore c.row}}

/-- Everything a step can do. -/
inductive Transition (json : Jsonb J) (s : Service J) : Event J → Service J → Prop
  | request {i : ℕ} {req : Request} (free : s.calls i=none) :
    Transition json s (.request i req) {s with calls := setCall s.calls i (some (.start req))}
  | fails {i : ℕ} {o : Outcome} {c : Call} {st : Statement} (call : s.calls i=some c)
    (next : c.frame.next=.inl st) (exec : st.exec json o s.db=none) :
    Transition json s (.statement i o)
      {s with calls := setCall s.calls i (some (c.resume json none))}
  | executes {i : ℕ} {o : Outcome} {c : Call} {st : Statement} {db : Database J}
    {rows : List (CommandRow J)} (call : s.calls i=some c) (next : c.frame.next=.inl st)
    (exec : st.exec json o s.db=some (db,rows)) :
    Transition json s (.statement i o)
      {s with db := db,calls := setCall s.calls i (some (c.resume json (some (rows,o.fetch))))}
  | reply {i : ℕ} {c : Call} {response : Response} (call : s.calls i=some c)
    (next : c.frame.next=.inr response) :
    Transition json s (.reply i)
      {s with calls := setCall s.calls i none,returned := s.returned++[(c.request,response)]}
  | receive {x : Request×Response} (sent : x∈s.returned) :
    Transition json s (.receive x) {s with received := s.received++[x]}
  | abort {i : ℕ} {c : Call} (call : s.calls i=some c) :
    Transition json s (.abort i) {s with calls := setCall s.calls i none}
  | insertCommand {c : NewCommand J}
    (fresh : c.commandId∉s.db.commands.rows.map CommandRow.commandId) :
    Transition json s (.insertCommand c)
      {s with db := {s.db with commands := s.db.commands.insertIgnore c.row}}

variable {json : Jsonb J} {s t : Service J} {e : Event J}

/-- A possible step is one of the listed transitions. -/
theorem step_transition (h : step json s e=some t) : Transition json s e t := by
  cases e with
  | request i req =>
    cases hc : s.calls i with
    | none =>
      simp only [step,hc,Option.some.injEq] at h
      subst h
      exact .request hc
    | some c => simp only [step,hc,reduceCtorEq] at h
  | statement i o =>
    cases hc : s.calls i with
    | none => simp only [step,hc,reduceCtorEq] at h
    | some c =>
      cases hn : c.frame.next with
      | inr response => simp only [step,hc,hn,reduceCtorEq] at h
      | inl st =>
        cases hx : st.exec json o s.db with
        | none =>
          simp only [step,hc,hn,runStatement,hx,Option.some.injEq] at h
          subst h
          exact .fails hc hn hx
        | some result =>
          obtain ⟨db,rows⟩ := result
          simp only [step,hc,hn,runStatement,hx,Option.some.injEq] at h
          subst h
          exact .executes hc hn hx
  | reply i =>
    cases hc : s.calls i with
    | none => simp only [step,hc,reduceCtorEq] at h
    | some c =>
      cases hn : c.frame.next with
      | inl st => simp only [step,hc,hn,reduceCtorEq] at h
      | inr response =>
        simp only [step,hc,hn,Option.some.injEq] at h
        subst h
        exact .reply hc hn
  | receive x =>
    simp only [step,Option.ite_none_right_eq_some,Option.some.injEq] at h
    obtain ⟨hx,rfl⟩ := h
    exact .receive hx
  | abort i =>
    cases hc : s.calls i with
    | none => simp only [step,hc,reduceCtorEq] at h
    | some c =>
      simp only [step,hc,Option.some.injEq] at h
      subst h
      exact .abort hc
  | insertCommand c =>
    simp only [step,Option.ite_none_left_eq_some,Option.some.injEq] at h
    obtain ⟨hf,rfl⟩ := h
    exact .insertCommand hf

/-- Every listed transition is a possible step. -/
theorem Transition.step (h : Transition json s e t) : step json s e=some t := by
  cases h with
  | request free => simp only [CloudService.step,free]
  | fails call next exec => simp only [CloudService.step,call,next,runStatement,exec]
  | executes call next exec => simp only [CloudService.step,call,next,runStatement,exec]
  | reply call next => simp only [CloudService.step,call,next]
  | receive sent => simp only [CloudService.step,if_pos sent]
  | abort call => simp only [CloudService.step,call]
  | insertCommand fresh => simp only [CloudService.step,if_neg fresh]

/-- The request of a call never changes. -/
theorem request_of_step (hs : step json s e=some t) {i : ℕ} {d : Call} (hd : t.calls i=some d) :
    (∃ c,s.calls i=some c ∧ c.request=d.request) ∨ e=.request i d.request := by
  cases step_transition hs with
  | request free =>
    rcases setCall_eq_some.mp hd with ⟨rfl,he⟩|⟨_,hc⟩
    · obtain rfl := Option.some.inj he
      exact Or.inr rfl
    · exact Or.inl ⟨d,hc,rfl⟩
  | fails call next exec | executes call next exec =>
    rcases setCall_eq_some.mp hd with ⟨rfl,he⟩|⟨_,hc⟩
    · obtain rfl := Option.some.inj he
      exact Or.inl ⟨_,call,rfl⟩
    · exact Or.inl ⟨d,hc,rfl⟩
  | reply call next | abort call =>
    rcases setCall_eq_some.mp hd with ⟨_,he⟩|⟨_,hc⟩
    · cases he
    · exact Or.inl ⟨d,hc,rfl⟩
  | receive sent | insertCommand fresh => exact Or.inl ⟨d,hd,rfl⟩

/-- The id, gateway and creation time of every stored command. -/
def origins (s : Service J) : List (String×String×Option Timestamp) :=
  s.db.commands.rows.map CommandRow.origin

/-- Stored commands keep their origin, and new ones come last. -/
theorem step_origins (h : step json s e=some t) : origins s<+:origins t := by
  cases step_transition h with
  | executes call next exec =>
    have hsame := exec_origin exec
    exact ⟨[],(List.append_nil _).trans hsame.symm⟩
  | insertCommand fresh =>
    dsimp only [origins]
    rw [Table.rows_insertIgnore_of_notMem fresh,List.map_append]
    exact List.prefix_append _ _
  | request | fails | reply | receive | abort => exact List.prefix_refl _

/-- The gateway owns a stored command with this id. -/
def Owns (s : Service J) (gatewayId id : String) : Prop :=
  ∃ row∈s.db.commands.rows, row.commandId=id ∧ row.gatewayId=gatewayId

/-- Ownership is part of the origin of a command. -/
theorem owns_iff_origin {gatewayId id : String} :
    Owns s gatewayId id ↔ ∃ created, (id,gatewayId,created)∈origins s := by
  constructor
  · rintro ⟨row,hr,rfl,rfl⟩
    exact ⟨row.createdAt,List.mem_map_of_mem hr⟩
  · rintro ⟨created,h⟩
    obtain ⟨row,hr,he⟩ := List.mem_map.mp h
    simp only [CommandRow.origin,Prod.mk.injEq] at he
    exact ⟨row,hr,he.1,he.2.1⟩

/-- Ownership lasts. -/
theorem Owns.step {gatewayId id : String} (h : Owns s gatewayId id)
    (hs : step json s e=some t) : Owns t gatewayId id := by
  obtain ⟨created,hc⟩ := owns_iff_origin.mp h
  exact owns_iff_origin.mpr ⟨created,(step_origins hs).subset hc⟩

/-- A command has one owner. -/
theorem Owns.gateway_eq {gatewayId id : String} (h : Owns s gatewayId id) {row : CommandRow J}
    (hr : row∈s.db.commands.rows) (hid : row.commandId=id) : row.gatewayId=gatewayId := by
  obtain ⟨row',hr',hid',hg'⟩ := h
  rw [s.db.commands.eq_of_key hr hr' (hid.trans hid'.symm),hg']

/-- Every call has read only commands that its gateway owns. -/
def ReadsOwned (s : Service J) : Prop :=
  ∀ i c, s.calls i=some c → ∀ cmd∈c.frame.commands, Owns s c.request.gatewayId cmd.commandId

theorem readsOwned_start (db : Database J) : ReadsOwned (Service.start db) := nofun

/-- What a call has read after one of its statements: the same as before, or
the beginning of the page its query has returned. -/
theorem commands_resume {c : Call} {st : Statement} {o : Outcome} {db : Database J}
    {rows : List (CommandRow J)} (hn : c.frame.next=.inl st)
    (hx : st.exec json o s.db=some (db,rows)) :
    ((c.resume json (some (rows,o.fetch))).frame.commands=c.frame.commands ∧
      (c.resume json (some (rows,o.fetch))).frame.todo<:+c.frame.todo) ∨
    ∃ cursor n, c.request=.checkCommands c.request.gatewayId cursor ∧
      c.frame=.selectCommands c.request.gatewayId ∧ db=s.db ∧
      (c.resume json (some (rows,o.fetch))).frame.commands=
        ((selectPending o c.request.gatewayId s.db).take n).map (cloudCommand json) ∧
      (c.resume json (some (rows,o.fetch))).frame.todo=
        (c.resume json (some (rows,o.fetch))).frame.commands.map CloudCommand.commandId := by
  rcases c.wellFormed.commands_resume json (some (rows,o.fetch)) with
    h|⟨gatewayId,cursor,rows',fetch,n,hq,hf,ha,hc,ht⟩
  · exact Or.inl h
  · simp only [Option.some.injEq,Prod.mk.injEq] at ha
    obtain ⟨rfl,rfl⟩ := ha
    rw [hf] at hn
    cases hn
    simp only [Statement.exec,Option.ite_none_right_eq_some,Option.some.injEq,Prod.mk.injEq] at hx
    obtain ⟨_,rfl,rfl⟩ := hx
    refine Or.inr ⟨cursor,n,?_,?_,rfl,?_,ht⟩
    · rw [hq]
      rfl
    · rw [hq]
      exact hf
    · rw [hq]
      exact hc

/-- A failing statement never adds to what a call has read. -/
theorem commands_resume_none {c : Call} :
    (c.resume json none).frame.commands=c.frame.commands ∧
      (c.resume json none).frame.todo<:+c.frame.todo := by
  rcases c.wellFormed.commands_resume json none with
    h|⟨_,_,_,_,_,_,_,ha,_⟩
  · exact h
  · cases ha

/-- A new call has read nothing. -/
theorem commands_start (req : Request) : (Call.start req).frame.commands=[] := by
  cases req <;> rfl

/-- One step preserves that calls read only commands of their gateway. -/
theorem ReadsOwned.step (h : ReadsOwned s) (hs : step json s e=some t) : ReadsOwned t := by
  have hold : ∀ i c, s.calls i=some c → ∀ cmd∈c.frame.commands,
      Owns t c.request.gatewayId cmd.commandId :=
    fun i c hc cmd hm => (h i c hc cmd hm).step hs
  intro i d hd cmd hm
  cases step_transition hs with
  | request free =>
    rcases setCall_eq_some.mp hd with ⟨_,he⟩|⟨_,hc⟩
    · obtain rfl := Option.some.inj he
      rw [commands_start] at hm
      exact absurd hm List.not_mem_nil
    · exact hold i d hc cmd hm
  | fails call next exec =>
    rcases setCall_eq_some.mp hd with ⟨_,he⟩|⟨_,hc⟩
    · obtain rfl := Option.some.inj he
      rw [commands_resume_none.1] at hm
      exact hold _ _ call cmd hm
    · exact hold i d hc cmd hm
  | executes call next exec =>
    rcases setCall_eq_some.mp hd with ⟨_,he⟩|⟨_,hc⟩
    · obtain rfl := Option.some.inj he
      rcases commands_resume next exec with ⟨hk,_⟩|⟨cursor,n,_,_,rfl,hr,_⟩
      · rw [hk] at hm
        exact hold _ _ call cmd hm
      · rw [hr] at hm
        obtain ⟨row,hrow,rfl⟩ := List.mem_map.mp hm
        obtain ⟨hmem,hg,_⟩ := mem_selectPending (List.mem_of_mem_take hrow)
        exact ⟨row,hmem,rfl,hg⟩
    · exact hold i d hc cmd hm
  | reply call next | abort call =>
    rcases setCall_eq_some.mp hd with ⟨_,he⟩|⟨_,hc⟩
    · cases he
    · exact hold i d hc cmd hm
  | receive sent => exact hold i d hd cmd hm
  | insertCommand fresh => exact hold i d hd cmd hm

/-- The number a new call is given. -/
def requestNumber : Event J → Option ℕ
  | .request i _ => some i
  | _ => none

/-- All calls use one number, so no two of them overlap. -/
def OneAtATime (_ : Service J) (e : Event J) (_ : Service J) : Prop :=
  ∀ i∈requestNumber e,i=0

instance (s t : Service J) (e : Event J) : Decidable (OneAtATime s e t) :=
  inferInstanceAs (Decidable (∀ i∈requestNumber e,i=0))

/-- At most the call with number zero is in progress. -/
def AtMostOneCall (s : Service J) : Prop := ∀ i c,s.calls i=some c → i=0

/-- Calls that never overlap stay alone. -/
theorem AtMostOneCall.step (h : AtMostOneCall s) (hg : OneAtATime s e t)
    (hs : step json s e=some t) : AtMostOneCall t := by
  intro i d hd
  cases step_transition hs with
  | request free =>
    rcases setCall_eq_some.mp hd with ⟨rfl,_⟩|⟨_,hc⟩
    · exact hg _ rfl
    · exact h i d hc
  | fails call next exec | executes call next exec =>
    rcases setCall_eq_some.mp hd with ⟨rfl,_⟩|⟨_,hc⟩
    · exact h _ _ call
    · exact h i d hc
  | reply call next | abort call =>
    rcases setCall_eq_some.mp hd with ⟨_,he⟩|⟨_,hc⟩
    · cases he
    · exact h i d hc
  | receive sent | insertCommand fresh => exact h i d hd

/-- The command lists of the successful CheckCommands responses to a gateway,
one after the other. -/
def handedOut (gatewayId : String) (responses : List (Request×Response)) : List CloudCommand :=
  responses.flatMap fun x =>
    match x with
    | (.checkCommands gatewayId' _,.checkCommands commands _) =>
      if gatewayId'=gatewayId then commands else []
    | _ => []

/-- The gateway has received a CheckCommands response with this command. -/
def Received (s : Service J) (gatewayId id : String) : Prop :=
  id∈(handedOut gatewayId s.received).map CloudCommand.commandId

instance (s : Service J) (gatewayId id : String) : Decidable (Received s gatewayId id) :=
  inferInstanceAs (Decidable (_∈_))

theorem handedOut_append (gatewayId : String) (xs ys : List (Request×Response)) :
    handedOut gatewayId (xs++ys)=handedOut gatewayId xs++handedOut gatewayId ys :=
  List.flatMap_append

/-- What a gateway has received it keeps. -/
theorem Received.step {gatewayId id : String} (h : Received s gatewayId id)
    (hs : step json s e=some t) : Received t gatewayId id := by
  cases step_transition hs with
  | receive sent =>
    dsimp only [Received] at h ⊢
    rw [handedOut_append,List.map_append]
    exact List.mem_append_left _ h
  | request | fails | executes | reply | abort | insertCommand => exact h

end Greenhouse.CloudService
