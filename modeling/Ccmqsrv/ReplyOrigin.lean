import Ccmqsrv.OutcomeFidelity
import Ccmqsrv.ServerRobustness

/-!
# Where a reply comes from

A worker is followed from the message it was made for to the reply it sends,
through tables that others may change between its steps.  Every reply that the
server has published is the end of such a path.  It goes to the address of its
message and is a body that clients can decode, and when the message is a
request as `rpc_encode_req` writes it, the reply is what came of calling the
function registered for that method on those arguments.
-/

namespace Ccmqsrv

open Foundations

/-- A worker made for the message, after any number of its steps, each taken
on one of the tables. -/
inductive WorksFor (env : Env) (tables : List MessageQueueServer) (message : Message) :
    Task → Prop
  | received : WorksFor env tables message (.rpc message)
  | step {task later : Task} {server after : MessageQueueServer} {calls : List Invocation}
      {next : List Task} {published : List Envelope} :
      WorksFor env tables message task → server ∈ tables →
        workStep env server task = (after, ⟨calls, .ok (next, published)⟩) → later ∈ next →
          WorksFor env tables message later

/-- The envelope was published by a worker made for the message. -/
def Replies (env : Env) (tables : List MessageQueueServer) (message : Message)
    (envelope : Envelope) : Prop :=
  ∃ task server after calls next published,
    WorksFor env tables message task ∧ server ∈ tables ∧
      workStep env server task = (after, ⟨calls, .ok (next, published)⟩) ∧ envelope ∈ published

/-- The envelope carries what came of calling the function registered for the
method on the arguments. -/
def CalledFor (env : Env) (tables : List MessageQueueServer) (message : Message) (meth : Str)
    (args : List Any) (envelope : Envelope) : Prop :=
  ∃ server f res, server ∈ tables ∧ server.rpcFuncMap.lookup meth = some (some f) ∧
    rpcCatch env (initialRes message) (callproxy env f (initialRes message) args).outcome =
      .ok res ∧
      sendReply env res = .ok envelope

/-- What a worker made for the message can have ready to send. -/
inductive Prepared (env : Env) (tables : List MessageQueueServer) (message : Message) :
    Res → Prop
  | found {server : MessageQueueServer} {res : Res} :
      server ∈ tables → rpcFind env server message = .ok (.reply res) →
        Prepared env tables message res
  | called {finder server : MessageQueueServer} {meth : Str} {args : List Any} {res : Res} :
      finder ∈ tables → rpcFind env finder message = .ok (.call meth args) → server ∈ tables →
        (rpcCall env server message meth args).2.outcome = .ok res → Prepared env tables message res

/-- Where a worker made for the message can stand. -/
inductive Stands (env : Env) (tables : List MessageQueueServer) (message : Message) :
    Task → Prop
  | rpc : Stands env tables message (.rpc message)
  | rpcCall {finder : MessageQueueServer} {meth : Str} {args : List Any} :
      finder ∈ tables → rpcFind env finder message = .ok (.call meth args) →
        Stands env tables message (.rpcCall message meth args)
  | rpcReply {res : Res} : Prepared env tables message res →
      Stands env tables message (.rpcReply message res)

variable {env : Env} {tables : List MessageQueueServer} {message : Message}
  {envelope : Envelope}

theorem WorksFor.mono {later : List MessageQueueServer} {task : Task}
    (works : WorksFor env tables message task) (grows : tables ⊆ later) :
    WorksFor env later message task := by
  induction works with
  | received => exact WorksFor.received
  | step _ member worked next inductionHypothesis =>
      exact WorksFor.step inductionHypothesis (grows member) worked next

theorem Replies.mono {later : List MessageQueueServer}
    (replies : Replies env tables message envelope) (grows : tables ⊆ later) :
    Replies env later message envelope := by
  obtain ⟨task, server, after, calls, next, published, works, member, rest⟩ := replies
  exact ⟨task, server, after, calls, next, published, works.mono grows, grows member, rest⟩

/-- A step of a worker leads from where it stands to where it can stand. -/
private theorem Stands.next {task later : Task} {server after : MessageQueueServer}
    {calls : List Invocation} {next : List Task} {published : List Envelope}
    (stands : Stands env tables message task) (member : server ∈ tables)
    (worked : workStep env server task = (after, ⟨calls, .ok (next, published)⟩))
    (isNext : later ∈ next) : Stands env tables message later := by
  have outcome := congrArg (fun worked => worked.2.outcome) worked
  cases stands with
  | rpc =>
      obtain ⟨lookup, looked, returned⟩ := bind_eq_ok.mp outcome
      cases returned
      cases List.mem_singleton.mp isNext
      cases lookup with
      | call meth args => exact Stands.rpcCall member looked
      | reply res => exact Stands.rpcReply (Prepared.found member looked)
  | @rpcCall finder meth args finderMember looked =>
      obtain ⟨res, called, returned⟩ := bind_eq_ok.mp outcome
      cases returned
      cases List.mem_singleton.mp isNext
      exact Stands.rpcReply (Prepared.called finderMember looked member called)
  | rpcReply prepared =>
      obtain ⟨sent, _, returned⟩ := bind_eq_ok.mp outcome
      cases returned
      cases isNext

theorem WorksFor.stands {task : Task} (works : WorksFor env tables message task) :
    Stands env tables message task := by
  induction works with
  | received => exact Stands.rpc
  | step _ member worked isNext inductionHypothesis =>
      exact inductionHypothesis.next member worked isNext

/-- A published envelope is a reply that was prepared. -/
theorem Replies.prepared (replies : Replies env tables message envelope) :
    ∃ res, Prepared env tables message res ∧ sendReply env res = .ok envelope := by
  obtain ⟨task, server, after, calls, next, published, works, member, worked, isPublished⟩ :=
    replies
  have outcome := congrArg (fun worked => worked.2.outcome) worked
  cases works.stands with
  | rpc =>
      obtain ⟨lookup, _, returned⟩ := bind_eq_ok.mp outcome
      cases returned
      cases isPublished
  | rpcCall finderMember looked =>
      obtain ⟨res, _, returned⟩ := bind_eq_ok.mp outcome
      cases returned
      cases isPublished
  | @rpcReply res prepared =>
      obtain ⟨sent, sending, returned⟩ := bind_eq_ok.mp outcome
      cases returned
      cases List.mem_singleton.mp isPublished
      exact ⟨res, prepared, sending⟩

/-- A call that came past the `try` block went to a registered function. -/
theorem rpcCall_eq_ok {server : MessageQueueServer} {meth : Str} {args : List Any} {res : Res}
    (called : (rpcCall env server message meth args).2.outcome = .ok res) :
    ∃ f, server.rpcFuncMap.lookup meth = some (some f) ∧
      rpcCatch env (initialRes message) (callproxy env f (initialRes message) args).outcome =
        .ok res := by
  cases found : server.rpcFuncMap.lookup meth with
  | none =>
      unfold rpcCall at called
      rw [functionAt_of_lookup_none found] at called
      cases called
  | some function =>
      rw [rpcCall_of_lookup found] at called
      cases function with
      | none => cases called
      | some f => exact ⟨f, rfl, called⟩

private theorem Prepared.answers (lawful : env.json.Lawful) {res : Res}
    (prepared : Prepared env tables message res) (sent : sendReply env res = .ok envelope) :
    ∃ document, res.Answers env message document := by
  cases prepared with
  | @found server _ member looked =>
      obtain ⟨document, request, parsed, shape, route⟩ := rpcFind_eq_ok.mp looked
      by_cases keywords : request.kws = []
      · cases registered : server.rpcFuncMap.lookup request.meth with
        | none =>
            rw [rpcRoute_missing keywords registered] at route
            cases route
            rw [sendReply_initialRes lawful] at sent
            cases sent
        | some function =>
            have present : (server.rpcFuncMap.lookup request.meth).isSome = true := by
              rw [registered]
              rfl
            rw [rpcRoute_found keywords present] at route
            cases route
      · obtain ⟨keyworded, caught, answers, _⟩ := keywordReply lawful message
        rw [rpcRoute_keywords keywords, caught, ok_bind] at route
        cases route
        exact ⟨.null, answers⟩
  | called finderMember looked member called =>
      obtain ⟨f, registered, caught⟩ := rpcCall_eq_ok called
      obtain ⟨args, converted, caughtOutcome, outcome⟩ := call_eq_ok lawful caught
      generalize f.func args = result at outcome
      cases outcome with
      | returned noError answers => exact ⟨_, answers⟩
      | failed errorEq answers => exact ⟨.null, answers⟩

/-- A reply goes to the address of its message, and clients can decode it. -/
theorem Replies.sent (lawful : env.json.Lawful)
    (replies : Replies env tables message envelope) :
    envelope.routingKey = message.replyTo ∧ envelope.correlationID = message.correlationID ∧
      ∃ result, decodeResponse env envelope.body = .ok result := by
  obtain ⟨res, prepared, sent⟩ := replies.prepared
  obtain ⟨document, answers⟩ := prepared.answers lawful sent
  obtain ⟨toReply, toId, noZero, parsed⟩ := sendReply_eq_ok lawful answers sent
  rw [← cString_eq_self noZero] at parsed
  obtain ⟨text, decoded, _⟩ := decodeResponse_reply lawful parsed
  exact ⟨toReply, toId, _, decoded⟩

/-- What a request of a client leads to: its own method, or a reply that
cannot be sent. -/
private theorem rpcFind_request {server : MessageQueueServer} {meth : Str} {args : List Json}
    {lookup : Lookup} (request : IsRequest env message meth args [])
    (looked : rpcFind env server message = .ok lookup) :
    lookup = .call meth (args.map parseJsonElement) ∨ lookup = .reply (initialRes message) := by
  obtain ⟨data, loaded, decoded⟩ := request.decoded
  have noKws : parseMembers [] ([] : List (Str × Json)) = [] := parseMembers_eq_nil.mpr rfl
  unfold rpcFind at looked
  rw [loaded, ok_bind, decoded, ok_bind] at looked
  cases registered : server.rpcFuncMap.lookup meth with
  | none =>
      rw [rpcRoute_missing noKws registered] at looked
      cases looked
      exact Or.inr rfl
  | some function =>
      have present : (server.rpcFuncMap.lookup meth).isSome = true := by
        rw [registered]
        rfl
      rw [rpcRoute_found noKws present] at looked
      cases looked
      exact Or.inl rfl

/-- The reply to a request is what came of the method and the arguments in it. -/
theorem Replies.calledFor (lawful : env.json.Lawful) {meth : Str} {args : List Json}
    (request : IsRequest env message meth args [])
    (replies : Replies env tables message envelope) :
    CalledFor env tables message meth (args.map parseJsonElement) envelope := by
  obtain ⟨res, prepared, sent⟩ := replies.prepared
  cases prepared with
  | found member looked =>
      rcases rpcFind_request request looked with impossible | same
      · cases impossible
      · cases same
        rw [sendReply_initialRes lawful] at sent
        cases sent
  | called finderMember looked member called =>
      rcases rpcFind_request request looked with same | impossible
      · cases same
        obtain ⟨f, registered, caught⟩ := rpcCall_eq_ok called
        exact ⟨_, f, res, member, registered, caught, sent⟩
      · cases impossible

namespace Server

/-- Every worker belongs to an event or to a message that was asked, and every
published reply to such a message. -/
structure Attributed (env : Env) (tables : List MessageQueueServer) (asked : Message → Prop)
    (state : State) : Prop where
  tasks : ∀ task ∈ state.tasks,
    (∃ eventType cbId eventData, task = .event eventType cbId eventData) ∨
      ∃ message, asked message ∧ WorksFor env tables message task
  published : ∀ envelope ∈ state.published,
    ∃ message, asked message ∧ Replies env tables message envelope

variable {asked : Message → Prop} {state after : State} {action : Action}

theorem Attributed.mono (attributed : Attributed env tables asked state)
    {later : List MessageQueueServer} {more : Message → Prop} (grows : tables ⊆ later)
    (asks : ∀ message, asked message → more message) : Attributed env later more state where
  tasks := by
    intro task member
    refine (attributed.tasks task member).imp_right fun attribution => ?_
    obtain ⟨message, wasAsked, works⟩ := attribution
    exact ⟨message, asks message wasAsked, works.mono grows⟩
  published := by
    intro envelope member
    obtain ⟨message, wasAsked, replies⟩ := attributed.published envelope member
    exact ⟨message, asks message wasAsked, replies.mono grows⟩

/-- The worker of an event leaves nothing and publishes nothing. -/
private theorem workStep_event {server after : MessageQueueServer} {eventType : Str} {cbId : Int}
    {eventData : Any} {calls : List Invocation} {next : List Task} {published : List Envelope}
    (worked : workStep env server (.event eventType cbId eventData) =
      (after, ⟨calls, .ok (next, published)⟩)) : next = [] ∧ published = [] := by
  have outcome := congrArg (fun worked => worked.2.outcome) worked
  obtain ⟨done, _, returned⟩ := bind_eq_ok.mp outcome
  cases returned
  exact ⟨rfl, rfl⟩

private theorem Attributed.work {index : Nat} {task : Task} {server : MessageQueueServer}
    {calls : List Invocation} {more : List WorkerCall} {next : List Task}
    {published : List Envelope} (attributed : Attributed env tables asked state)
    (current : state.server ∈ tables) (found : state.tasks[index]? = some task)
    (worked : workStep env state.server task = (server, ⟨calls, .ok (next, published)⟩)) :
    Attributed env tables asked
      { state with
        server
        tasks := next ++ state.tasks.eraseIdx index
        published := state.published ++ published
        calls := more } := by
  have own := attributed.tasks task (List.mem_of_getElem? found)
  constructor
  · intro other member
    rcases List.mem_append.mp member with new | old
    · rcases own with ⟨eventType, cbId, eventData, rfl⟩ | ⟨message, wasAsked, works⟩
      · rw [(workStep_event worked).1] at new
        cases new
      · exact Or.inr ⟨message, wasAsked, works.step current worked new⟩
    · exact attributed.tasks other (List.mem_of_mem_eraseIdx old)
  · intro envelope member
    rcases List.mem_append.mp member with old | new
    · exact attributed.published envelope old
    · rcases own with ⟨eventType, cbId, eventData, rfl⟩ | ⟨message, wasAsked, works⟩
      · rw [(workStep_event worked).2] at new
        cases new
      · exact ⟨message, wasAsked, task, _, _, _, next, published, works, current, worked, new⟩

theorem Attributed.next (attributed : Attributed env tables asked state)
    (current : state.server ∈ tables)
    (asks : ∀ message, action = .rpcMessage message → asked message)
    (effect : Effect env state action after) : Attributed env tables asked after := by
  cases effect with
  | rpcMessage message =>
      refine ⟨?_, attributed.published⟩
      rw [List.forall_mem_cons]
      exact ⟨Or.inr ⟨message, asks message rfl, WorksFor.received⟩, attributed.tasks⟩
  | eventMessage received =>
      obtain ⟨_, eventType, eventData, _, _, _, rfl⟩ := onEventMessage_eq_ok.mp received
      refine ⟨?_, attributed.published⟩
      intro task member
      rcases List.mem_append.mp member with new | old
      · obtain ⟨cbId, _, rfl⟩ := List.mem_map.mp new
        exact Or.inl ⟨eventType, cbId, _, rfl⟩
      · exact attributed.tasks task old
  | work found worked => exact attributed.work current found worked
  | workFault found worked =>
      refine ⟨?_, attributed.published⟩
      intro task member
      exact attributed.tasks task (List.mem_of_mem_eraseIdx member)
  | _ => exact ⟨attributed.tasks, attributed.published⟩

end Server

end Ccmqsrv
