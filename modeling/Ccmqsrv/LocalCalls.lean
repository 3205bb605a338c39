import Ccmqsrv.ArgumentRoundTrip
import Ccmqsrv.RemoteCalls
import Ccmqsrv.WaitingCalls

/-!
# A remote call is a call of the function

What a call gives is what the function registered for its method gives for the
arguments of the call, as if it had been called in the place of the caller.
Other calls and other threads make no difference, nor does the order in which
messages arrive, and functions can be registered and unregistered before the
call and after it.  A call that waits can always come back so.

Two encodings lie between the function and its caller.  A float that JSON does
not have arrives as null, and the text of a failure ends at its first zero.
And the call can end without any reply.
-/

namespace Ccmqsrv

open Foundations

/-- The function gives this to the caller for the arguments in the request. -/
def Handler.Gives (f : Handler) (call : Client.Call) (outcome : Cpp Json) : Prop :=
  ∃ args, getTuple f.params ((call.args.map Json.scrub).map parseJsonElement) = .ok args ∧
    conveyed (f.func args) = some outcome

/-- No other function has the name. -/
def OnlyFunction (f : Handler) (meth : Str) (server : MessageQueueServer) : Prop :=
  ∀ g, server.rpcFuncMap.lookup meth = some (some g) → g = f

variable {env : Env}

/-- The arguments of a call arrive as they were passed. -/
theorem Handler.Gives.conveyed_eq {f : Handler} {call : Client.Call} {outcome : Cpp Json}
    (gives : f.Gives call outcome) (supported : ∀ type ∈ f.params, type.isArgument = true)
    {args : Tuple f.params} (passed : call.args = Tuple.toJson f.params args)
    (finite : ∀ argument ∈ call.args, argument.Finite) :
    conveyed (f.func args) = some outcome := by
  obtain ⟨arrived, converted, conveys⟩ := gives
  have unchanged : call.args.map Json.scrub = call.args := by
    rw [List.map_congr_left fun argument member => (finite argument member).scrub_eq]
    exact List.map_id' call.args
  have recovered : getTuple f.params ((Tuple.toJson f.params args).map parseJsonElement) =
      .ok args := getComponents_parseElements supported args []
  rw [unchanged, passed, recovered] at converted
  cases converted
  exact conveys

theorem wellFormed_of_passed {f : Handler} {call : Client.Call} {args : Tuple f.params}
    (passed : call.args = Tuple.toJson f.params args) :
    ∀ argument ∈ call.args, argument.WellFormed := by
  rw [passed]
  exact Tuple.toJson_wellFormed f.params args

section Worker

variable {tables : List MessageQueueServer} {server : MessageQueueServer} {message : Message}
  {call : Client.Call} {f : Handler} {task : Task} {next : List Task}
  {published : List Envelope} {res : Res} {envelope : Envelope}

/-- A worker that serves the request of a call prepares what the function
gives, when no other function has the name of the method.  Nothing that can be
sent answers an unknown method. -/
theorem gives_of_workStep (lawful : env.json.Lawful)
    (request : IsRequest env message call.meth (call.args.map Json.scrub) [])
    (stands : Stands env tables message task)
    (only : OnlyFunction f call.meth server)
    (leaves : Leaves env server task next published)
    (isNext : .rpcReply message res ∈ next) (sent : sendReply env res = .ok envelope) :
    f.Gives call (callOutcome env envelope.body) := by
  cases leaves with
  | looked looked =>
      have isReply := List.mem_singleton.mp isNext
      cases stands
      rcases rpcFind_of_request request server with same | same
      · rw [looked] at same
        cases same
        cases isReply
      · rw [looked] at same
        cases same
        cases isReply
        rw [sendReply_initialRes lawful] at sent
        cases sent
  | called called =>
      cases List.mem_singleton.mp isNext
      cases stands with
      | @rpcCall finder _ _ finderMember looked =>
          rcases rpcFind_of_request request finder with same | same
          · rw [looked] at same
            cases same
            obtain ⟨g, registered, caught⟩ := rpcCall_eq_ok called
            cases only g registered
            obtain ⟨args, converted, _, outcome⟩ := call_eq_ok lawful caught
            exact ⟨args, converted, outcome.conveyed_eq lawful sent⟩
          · rw [looked] at same
            cases same
  | replied sending => cases isNext
  | handled => cases isNext

end Worker

namespace Client

/-- The call ends without a reply: its request cannot be encoded, its time is
over, or it comes out of `get` when nothing was stored for it. -/
inductive Unanswered (env : Env) (call : Call) : Cpp Json → Prop
  | encode {fault : Fault} : rpcEncodeReq env call.id call.meth call.args = .error fault →
      Unanswered env call (.error fault)
  | timeout : Unanswered env call (throwing (.runtimeError (ascii "call function timeout.")))
  | nothing : Unanswered env call (throwing .jsonException)

variable {config : Config} {state after : State} {call : Call} {outcome : Cpp Json}

theorem Unanswered.not_ok (unanswered : Unanswered env call outcome) (value : Json) :
    outcome ≠ .ok value := by
  intro same
  cases unanswered <;> cases same

/-- The client has read this outcome from a reply to the call. -/
def ReadReply (env : Env) (state : State) (call : Call) (outcome : Cpp Json) : Prop :=
  ∃ message response, .sent call message ∈ state.history ∧
    .delivered response true ∈ state.history ∧ response.correlationID = call.id ∧
      callOutcome env response.body = outcome

/-- A call that ends in the step has not ended before, and ends without a reply
or with what it reads from one. -/
theorem CallsMove.ended_cases (move : CallsMove env config state after)
    (lawful : env.json.Lawful) (reachable : (machine env config).Reachable state)
    (ended : .ended call outcome ∈ after.history) :
    .ended call outcome ∈ state.history ∨
      (∀ other, .ended call other ∉ state.history) ∧
        (Unanswered env call outcome ∨ ReadReply env state call outcome) := by
  rcases move.ended_before ended with earlier | ⟨user, point, inCall, ends, _⟩
  · exact Or.inl earlier
  refine Or.inr ⟨fun other earlier => ?_, ?_⟩
  · exact (oncePerCall_of_reachable lawful reachable).unended user call point inCall call other
      earlier rfl
  have follows := (callsTold_of_reachable lawful reachable).follow user call point inCall
  cases ends with
  | encodeFault failed => exact Or.inl (Unanswered.encode failed)
  | throw => exact Or.inl Unanswered.timeout
  | @finish ret =>
      obtain ⟨⟨message, sent⟩, empty | stored⟩ : Sent state.history call ∧ _ := follows
      · have parsed : finishCall env ret = throwing .jsonException := by
          rw [empty, finishCall_success, jsonParse, lawful.parse_nil]
        rw [parsed]
        exact Or.inl Unanswered.nothing
      · obtain ⟨response, delivered, sameId, decoded⟩ :=
          (storedDecoded_of_reachable reachable).stored call.id ret stored
        refine Or.inr ⟨message, response, sent, delivered, sameId, ?_⟩
        unfold callOutcome
        rw [decoded, ok_bind]

end Client

namespace Network

/-- The client has sent the request of the call. -/
def CallSent (index : Nat) (call : Client.Call) (state : State) : Prop :=
  Client.Sent (state.clients index).history call

/-- The call has not come back to its user. -/
def CallOpen (index : Nat) (call : Client.Call) (state : State) : Prop :=
  ∀ outcome, .ended call outcome ∉ (state.clients index).history

/-- While the call is under way no other function has the name of its method. -/
def ServedBy (f : Handler) (index : Nat) (call : Client.Call) (state : State) : Prop :=
  CallSent index call state → CallOpen index call state →
    OnlyFunction f call.meth state.server.server

/-- What is prepared for the call while it is under way, what is sent to it and
what it has come to, is what the function gives. -/
structure GivenBy (env : Env) (f : Handler) (index : Nat) (call : Client.Call)
    (state : State) : Prop where
  prepared : CallSent index call state → CallOpen index call state →
    ∀ message res envelope, .rpcReply message res ∈ state.server.tasks →
      message.correlationID = call.id → sendReply env res = .ok envelope →
        f.Gives call (callOutcome env envelope.body)
  published : CallSent index call state → CallOpen index call state →
    ∀ envelope ∈ state.server.published, envelope.correlationID = call.id →
      f.Gives call (callOutcome env envelope.body)
  ended : ∀ outcome, .ended call outcome ∈ (state.clients index).history →
    Client.Unanswered env call outcome ∨ f.Gives call outcome

variable {configs : Nat → Client.Config} {state after : State} {action : Action} {index : Nat}
  {call : Client.Call} {f : Handler}

/-- A request with the id of a call that has sent one, now or later, is the
request of that call. -/
private theorem sent_of_asked (lawful : env.json.Lawful)
    (reachable : (machine env configs).Reachable after) (isSent : CallSent index call after)
    (grows : ∀ other, (state.clients other).history ⊆ (after.clients other).history)
    {asked : Message} (wasAsked : Asked state asked) (sameId : asked.correlationID = call.id) :
    .sent call asked ∈ (state.clients index).history := by
  obtain ⟨other, asker, askerSent⟩ := wasAsked
  obtain ⟨message, sent⟩ := isSent
  have askerId : asker.id = call.id :=
    (correlationID_of_sent lawful reachable (grows other askerSent)).symm.trans sameId
  obtain ⟨rfl, rfl⟩ := sameCall lawful reachable sent (grows other askerSent) askerId
  exact askerSent

/-- A reply that is ready to be sent is that to a message that was asked. -/
private theorem asked_of_ready (reachable : (machine env configs).Reachable state)
    {message : Message} {res : Res} (ready : .rpcReply message res ∈ state.server.tasks) :
    Asked state message := by
  rcases (linked_of_reachable reachable).attributed.tasks _ ready with
    ⟨_, _, _, impossible⟩ | ⟨asked, wasAsked, works⟩
  · cases impossible
  · cases works.stands
    exact wasAsked

section Steps

variable (lawful : env.json.Lawful) (reachable : (machine env configs).Reachable state)
  (given : GivenBy env f index call state)

include lawful reachable given

/-- A step of a client. -/
private theorem GivenBy.putClient {mover : Nat} {clientAction : Client.Action}
    {client : Client.State}
    (reachableAfter : (machine env configs).Reachable (state.putClient mover client))
    (stepped : Client.step env (configs mover) (state.clients mover) clientAction = some client) :
    GivenBy env f index call (state.putClient mover client) := by
  have move := (Client.step_effect stepped).2.callsMove
  have grows : ∀ other, (state.clients other).history ⊆
      ((state.putClient mover client).clients other).history := by
    intro other
    by_cases same : other = mover
    · subst same
      rw [State.putClient_self]
      exact move.history_subset
    · rw [State.putClient_of_ne _ _ same]
      exact List.Subset.refl _
  have stillOpen : CallOpen index call (state.putClient mover client) →
      CallOpen index call state :=
    fun isOpen outcome ended => isOpen outcome (grows index ended)
  have linked := linked_of_reachable reachable
  constructor
  · intro isSent isOpen message res envelope ready sameId
    have sent := sent_of_asked lawful reachableAfter isSent grows
      (asked_of_ready reachable ready) sameId
    exact given.prepared ⟨message, sent⟩ (stillOpen isOpen) message res envelope ready sameId
  · intro isSent isOpen envelope published sameId
    obtain ⟨asked, wasAsked, replies⟩ := linked.attributed.published envelope published
    have sent := sent_of_asked lawful reachableAfter isSent grows wasAsked
      ((replies.sent lawful).2.1.symm.trans sameId)
    exact given.published ⟨asked, sent⟩ (stillOpen isOpen) envelope published sameId
  · intro outcome ended
    by_cases same : index = mover
    · subst same
      rw [State.putClient_self] at ended
      rcases move.ended_cases lawful (client_reachable reachable index) ended with
        earlier | ⟨isOpen, unanswered | ⟨message, response, sent, delivered, sameId, read⟩⟩
      · exact given.ended outcome earlier
      · exact Or.inl unanswered
      · obtain ⟨envelope, published, _, rfl⟩ := linked.delivered index response true delivered
        rw [← read]
        exact Or.inr (given.published ⟨message, sent⟩ isOpen envelope published sameId)
    · rw [State.putClient_of_ne _ _ same] at ended
      exact given.ended outcome ended

/-- A step of a worker. -/
private theorem GivenBy.work {place : Nat} {task : Task} {server : MessageQueueServer}
    {calls : List Invocation} {next : List Task} {published : List Envelope}
    {more : List WorkerCall} (wellFormed : ∀ argument ∈ call.args, argument.WellFormed)
    (served : ServedBy f index call state) (found : state.server.tasks[place]? = some task)
    (worked : workStep env state.server.server task = (server, ⟨calls, .ok (next, published)⟩)) :
    GivenBy env f index call (state.putServer
      { state.server with
        server
        tasks := next ++ state.server.tasks.eraseIdx place
        published := state.server.published ++ published
        calls := more }) := by
  have isTask := List.mem_of_getElem? found
  have leaves := leaves_of_workStep (congrArg (fun worked => worked.2.outcome) worked)
  have linked := linked_of_reachable reachable
  refine ⟨?_, ?_, given.ended⟩
  · intro isSent isOpen message res envelope ready sameId sending
    rcases List.mem_append.mp ready with isNext | old
    · rcases linked.attributed.tasks task isTask with
        ⟨_, _, _, rfl⟩ | ⟨asked, wasAsked, works⟩
      · cases leaves
        cases isNext
      · have current := works.mono (List.subset_cons_self state.server.server state.tables)
        cases (current.step List.mem_cons_self worked isNext).stands
        have sent := sent_of_asked lawful reachable isSent (fun _ => List.Subset.refl _) wasAsked
          sameId
        exact gives_of_workStep lawful (isRequest_of_sent lawful reachable wellFormed sent)
          works.stands (served isSent isOpen) leaves isNext sending
    · exact given.prepared isSent isOpen message res envelope (List.mem_of_mem_eraseIdx old) sameId
        sending
  · intro isSent isOpen envelope isPublished sameId
    rcases List.mem_append.mp isPublished with old | new
    · exact given.published isSent isOpen envelope old sameId
    · cases leaves with
      | looked looked => cases new
      | called called => cases new
      | handled => cases new
      | @replied message res _ sending =>
          cases List.mem_singleton.mp new
          rcases linked.attributed.tasks _ isTask with
            ⟨_, _, _, impossible⟩ | ⟨asked, _, works⟩
          · cases impossible
          · cases works.stands
            have current := works.mono (List.subset_cons_self state.server.server state.tables)
            have replies : Replies env _ message envelope :=
              ⟨_, _, _, _, _, _, current, List.mem_cons_self, worked, List.mem_cons_self⟩
            have itsId := (replies.sent lawful).2.1.symm.trans sameId
            exact given.prepared isSent isOpen message res envelope isTask itsId sending

/-- A step of the server. -/
private theorem GivenBy.putServer {serverAction : Server.Action} {server : Server.State}
    (wellFormed : ∀ argument ∈ call.args, argument.WellFormed)
    (served : ServedBy f index call state)
    (stepped : Server.step env state.server serverAction = some server) :
    GivenBy env f index call (state.putServer server) := by
  cases (Server.step_effect stepped).2 with
  | rpcMessage message =>
      refine ⟨?_, given.published, given.ended⟩
      intro isSent isOpen other res envelope ready
      rcases List.mem_cons.mp ready with impossible | earlier
      · cases impossible
      · exact given.prepared isSent isOpen other res envelope earlier
  | eventMessage received =>
      obtain ⟨_, _, _, _, _, _, rfl⟩ := onEventMessage_eq_ok.mp received
      refine ⟨?_, given.published, given.ended⟩
      intro isSent isOpen other res envelope ready
      rcases List.mem_append.mp ready with isNew | earlier
      · obtain ⟨_, _, impossible⟩ := List.mem_map.mp isNew
        cases impossible
      · exact given.prepared isSent isOpen other res envelope earlier
  | work found worked => exact given.work lawful reachable wellFormed served found worked
  | workFault found worked =>
      refine ⟨?_, given.published, given.ended⟩
      intro isSent isOpen other res envelope ready
      exact given.prepared isSent isOpen other res envelope (List.mem_of_mem_eraseIdx ready)
  | _ => exact ⟨given.prepared, given.published, given.ended⟩

end Steps

/-- A call is given what the function gives in every run in which no other
function has the name of its method while the call is under way. -/
theorem givenBy_of_run (lawful : env.json.Lawful)
    (wellFormed : ∀ argument ∈ call.args, argument.WellFormed) {trace : List Action}
    (run : (machine env configs).Run (fun state _ => ServedBy f index call state) trace state) :
    GivenBy env f index call state := by
  refine run.invariant (fun _ => GivenBy env f index call) ?_ ?_
  · constructor
    · intro _ _ _ _ _ ready
      cases ready
    · intro _ _ _ published
      cases published
    · intro _ ended
      cases ended
  · intro _ state after _ earlier given served stepped
    have reachable := earlier.reachable
    have reachableAfter := reachable.next stepped
    cases step_effect stepped with
    | client notDelivery fresh moved =>
        exact given.putClient lawful reachable reachableAfter moved
    | server notRequest moved => exact given.putServer lawful reachable wellFormed served moved
    | request sent moved => exact given.putServer lawful reachable wellFormed served moved
    | reply published addressed moved =>
        exact given.putClient lawful reachable reachableAfter moved

end Network

namespace Server

variable {state after : State} {action : Action} {meth : Str} {g : Handler}

/-- A worker puts no function into the table: what `operator[]` leaves is empty. -/
private theorem function_before_work {server later : MessageQueueServer} {task : Task}
    {recorded : Recorded (List Task × List Envelope)}
    (worked : workStep env server task = (later, recorded))
    (found : later.rpcFuncMap.lookup meth = some (some g)) :
    server.rpcFuncMap.lookup meth = some (some g) := by
  have same : (workStep env server task).1 = later := congrArg Prod.fst worked
  rw [← same] at found
  cases task with
  | rpc message => exact found
  | rpcReply message res => exact found
  | event eventType cbId eventData => exact found
  | rpcCall message other args =>
      have looked : (functionAt server.rpcFuncMap other).2.lookup meth = some (some g) := found
      cases present : server.rpcFuncMap.lookup other with
      | some function =>
          rw [functionAt_of_lookup present] at looked
          exact looked
      | none =>
          rw [functionAt_of_lookup_none present, OrderedMap.lookup_insert] at looked
          by_cases same : meth = other
          · rw [if_pos same] at looked
            cases looked
          · rw [if_neg same] at looked
            exact looked

/-- Only a registration puts a function into the table. -/
theorem Effect.function_before (effect : Effect env state action after)
    (found : after.server.rpcFuncMap.lookup meth = some (some g)) :
    state.server.rpcFuncMap.lookup meth = some (some g) ∨ action = .registerRpc meth g := by
  cases effect with
  | work isTask worked => exact Or.inl (function_before_work worked found)
  | workFault isTask worked => exact Or.inl (function_before_work worked found)
  | @registerRpc name func free =>
      have inserted : (state.server.rpcFuncMap.insert name (some func)).lookup meth =
        some (some g) := found
      rw [OrderedMap.lookup_insert] at inserted
      by_cases same : meth = name
      · rw [if_pos same] at inserted
        cases inserted
        exact Or.inr (same ▸ rfl)
      · rw [if_neg same] at inserted
        exact Or.inl inserted
  | unregisterRpc name =>
      unfold Ccmqsrv.unregisterRpc at found
      split at found
      · rw [OrderedMap.lookup_erase] at found
        by_cases same : meth = name
        · rw [if_pos same] at found
          cases found
        · rw [if_neg same] at found
          exact Or.inl found
      · exact Or.inl found
  | registerEventHandler registered =>
      obtain ⟨_, rfl⟩ := registerEventHandler_eq_ok registered
      exact Or.inl found
  | unregisterEventHandler walk =>
      unfold Ccmqsrv.unregisterEventHandler at found
      dsimp only at found
      split at found
      · exact Or.inl found
      · split at found <;> exact Or.inl found
  | _ => exact Or.inl found

/-- What is registered under the name is this function. -/
def RegistersOnly (f : Handler) (meth : Str) : Action → Prop
  | .registerRpc name g => name = meth → g = f
  | _ => True

/-- A name that is registered for one function only has no other function. -/
theorem Effect.onlyFunction {f : Handler} (effect : Effect env state action after)
    (only : OnlyFunction f meth state.server) (registers : RegistersOnly f meth action) :
    OnlyFunction f meth after.server := by
  intro g found
  rcases effect.function_before found with before | registered
  · exact only g before
  · subst registered
    exact registers rfl

end Server

section Example

/-- A function of one `int` that returns a `bool`. -/
def isNegative : Handler where
  params := [.int]
  func args := .ok (.value (.bool (decide (Int32.toInt args.1 < 0))) trivial)

def asksNegative (call : Client.Call) : Bool :=
  decide (call.meth = ascii "negative") &&
    match call.args with
    | [.int number] => decide (number = -7)
    | _ => false

theorem asksNegative_eq {call : Client.Call} (asks : asksNegative call = true) :
    call.meth = ascii "negative" ∧
      call.args = Tuple.toJson isNegative.params ((-7 : Int32), ()) := by
  obtain ⟨isMeth, isArgs⟩ := Bool.and_eq_true_iff.mp asks
  refine ⟨of_decide_eq_true isMeth, ?_⟩
  split at isArgs
  · rename_i number same
    rw [same, of_decide_eq_true isArgs]
    rfl
  · cases isArgs

theorem finite_of_asksNegative {call : Client.Call} (asks : asksNegative call = true) :
    ∀ argument ∈ call.args, argument.Finite := by
  rw [(asksNegative_eq asks).2]
  decide

/-- Nothing is registered under the name. -/
def registersElsewhere (meth : Str) : Server.Action → Bool
  | .registerRpc name _ => decide (name ≠ meth)
  | _ => true

theorem registersOnly_of_elsewhere {f : Handler} {meth : Str} {action : Server.Action}
    (elsewhere : registersElsewhere meth action = true) : Server.RegistersOnly f meth action := by
  cases action with
  | registerRpc name g => exact fun same => absurd same (of_decide_eq_true elsewhere)
  | _ => trivial

end Example

namespace Network

variable {configs : Nat → Client.Config} {state : State} {index : Nat} {call : Client.Call}
  {f : Handler}

/-- A call comes back with what the function gives for its arguments, or fails
without a reply. -/
theorem call_is_local (lawful : env.json.Lawful)
    (supported : ∀ type ∈ f.params, type.isArgument = true) {args : Tuple f.params}
    (passed : call.args = Tuple.toJson f.params args)
    (finite : ∀ argument ∈ call.args, argument.Finite) {trace : List Action}
    (run : (machine env configs).Run (fun state _ => ServedBy f index call state) trace state)
    {outcome : Cpp Json} (ended : .ended call outcome ∈ (state.clients index).history) :
    conveyed (f.func args) = some outcome ∨
      Client.Unanswered env call outcome ∧ ∀ value, outcome ≠ .ok value := by
  have given := givenBy_of_run lawful (wellFormed_of_passed passed) run
  rcases given.ended outcome ended with unanswered | gives
  · exact Or.inr ⟨unanswered, unanswered.not_ok⟩
  · exact Or.inl (gives.conveyed_eq supported passed finite)

section Example

/-- The request for the value at -7. -/
def negativeRequest : Message where
  body := ascii "[0,\"corr-1\",\"negative\",[-7],\x7b\x7d]"
  correlationID := ascii "corr-1"
  replyTo := ascii "cbq-1"

def negativeEnvelope : Envelope where
  routingKey := ascii "cbq-1"
  correlationID := ascii "corr-1"
  body := ascii "[1,\"corr-1\",\"\",true]"

/-- The call for the value at -7, and what comes of it. -/
def negativeCall : List Action :=
  .client 0 (.call 0 (ascii "q") (ascii "negative") [.int (-7)] (ascii "1")) ::
    List.replicate 9 (.client 0 (.advance (.user 0))) ++
    [.request 0 negativeRequest, .server (.work 0), .server (.work 0), .server (.work 0),
      .reply 0 negativeEnvelope, .client 0 (.advance .loop), .client 0 (.advance .loop),
      .client 0 (.advance .loop), .client 0 (.store (some (.user 0))),
      .client 0 (.wake 0 .noTimeout)] ++
    List.replicate 5 (.client 0 (.advance (.user 0)))

def RegistersOnly (f : Handler) (meth : Str) : Action → Prop
  | .server action => Server.RegistersOnly f meth action
  | _ => True

private theorem servedBy_of_registersOnly {trace : List Action}
    (run : (machine env configs).Run Machine.always trace state)
    (registers : ∀ action ∈ trace, RegistersOnly f call.meth action) :
    (machine env configs).Run (fun state _ => ServedBy f index call state) trace state := by
  refine (run.kept (fun state => OnlyFunction f call.meth state.server.server)
    (RegistersOnly f call.meth) ?_ ?_ registers).1.weaken fun allowed _ _ => allowed.2
  · intro _ found
    cases found
  · intro _ _ _ only registers stepped
    cases step_effect stepped with
    | client notDelivery fresh moved => exact only
    | reply published addressed moved => exact only
    | server notRequest moved => exact (Server.step_effect moved).2.onlyFunction only registers
    | request sent moved => exact (Server.step_effect moved).2.onlyFunction only trivial

private theorem negativeCall_registersOnly :
    ∀ action ∈ .server (.registerRpc (ascii "negative") isNegative) :: negativeCall,
      RegistersOnly isNegative (ascii "negative") action := by
  have others : ∀ action ∈ negativeCall, (match action with
      | .server action => registersElsewhere (ascii "negative") action
      | _ => true) = true := by
    decide
  rw [List.forall_mem_cons]
  refine ⟨fun _ => rfl, fun action member => ?_⟩
  have elsewhere := others action member
  cases action with
  | server action => exact registersOnly_of_elsewhere elsewhere
  | _ => trivial

/-- The call for -7 has returned `true`. -/
def returnsTrue : Client.Event → Bool
  | .ended call (.ok (.bool true)) => asksNegative call
  | _ => false

private theorem returnsTrue_eq {event : Client.Event} (returns : returnsTrue event = true) :
    ∃ call, event = .ended call (.ok (.bool true)) ∧ asksNegative call = true := by
  unfold returnsTrue at returns
  split at returns
  · exact ⟨_, rfl, returns⟩
  · cases returns

theorem call_is_local_isNegative :
    ∃ state call, (machine ⟨codec, false⟩ fun _ => Client.exampleConfig).Run
        (fun state _ => ServedBy isNegative 0 call state)
        (.server (.registerRpc (ascii "negative") isNegative) :: negativeCall) state ∧
      .ended call (.ok (.bool true)) ∈ (state.clients 0).history ∧
        conveyed (isNegative.func (-7, ())) = some (.ok (.bool true)) := by
  have passed : ((machine ⟨codec, false⟩ fun _ => Client.exampleConfig).exec
      (.server (.registerRpc (ascii "negative") isNegative) :: negativeCall)
      (machine ⟨codec, false⟩ fun _ => Client.exampleConfig).init).any (fun state =>
        (state.clients 0).history.any returnsTrue) = true := by
    decide +kernel
  obtain ⟨state, run, returned⟩ := Machine.Run.of_exec_any (fun _ _ _ => trivial) passed
  obtain ⟨event, ended, returns⟩ := List.any_eq_true.mp returned
  obtain ⟨call, rfl, asks⟩ := returnsTrue_eq returns
  have served := @servedBy_of_registersOnly ⟨codec, false⟩ _ state 0 call isNegative _ run
    ((asksNegative_eq asks).1 ▸ negativeCall_registersOnly)
  refine ⟨state, call, served, ended, ?_⟩
  have lawful : (Env.mk codec false).json.Lawful := codec_lawful
  rcases call_is_local lawful (by decide) (asksNegative_eq asks).2
    (finite_of_asksNegative asks) served ended with conveys | ⟨_, notOk⟩
  · exact conveys
  · exact absurd rfl (notOk _)

end Example

end Network

namespace Deployment

variable {site : Site} {state after : State} {action : Action} {index : Nat}
  {call : Client.Call} {f : Handler}

/-- What the guard allows while no other function has the name of the method of
the call, as long as the call is under way. -/
def WhileServed (guard : State → Action → Prop) (f : Handler) (index : Nat) (call : Client.Call)
    (state : State) (action : Action) : Prop :=
  guard state action ∧ Network.ServedBy f index call state.parties

def RegistersOnly (f : Handler) (meth : Str) : Action → Prop
  | .server action => Server.RegistersOnly f meth action
  | _ => True

private theorem onlyFunction_next {meth : Str}
    (only : OnlyFunction f meth state.parties.server.server)
    (registers : RegistersOnly f meth action) (stepped : step env site state action = some after) :
    OnlyFunction f meth after.parties.server.server := by
  cases step_effect stepped with
  | server notMessage moved => exact (Server.step_effect moved).2.onlyFunction only registers
  | request connection queue delivers moved =>
      exact (Server.step_effect moved).2.onlyFunction only trivial
  | event connection queue delivers moved =>
      exact (Server.step_effect moved).2.onlyFunction only trivial
  | _ => exact only

private theorem whileServed_of_registersOnly {guard : State → Action → Prop}
    {trace : List Action} (run : (machine env site).Run guard trace state)
    (registers : ∀ action ∈ trace, RegistersOnly f call.meth action) :
    (machine env site).Run (WhileServed guard f index call) trace state ∧
      Network.ServedBy f index call state.parties := by
  have init : OnlyFunction f call.meth (machine env site).init.parties.server.server := by
    intro _ found
    cases found
  obtain ⟨runOnly, only⟩ := run.kept
    (fun state => OnlyFunction f call.meth state.parties.server.server)
    (RegistersOnly f call.meth) init onlyFunction_next registers
  exact ⟨runOnly.weaken fun allowed => ⟨allowed.1, fun _ _ => allowed.2⟩, fun _ _ => only⟩

/-- Broker and workers register nothing. -/
private theorem whileServed_of_serving {later : State} {trace : List Action}
    (run : (machine env site).Run (WhileServed (Addressed site) f index call) trace state)
    (only : OnlyFunction f call.meth state.parties.server.server)
    (leads : (machine env site).Leads Serving state later) :
    ∃ more, (machine env site).Run (WhileServed (Addressed site) f index call) more later := by
  have both : (∃ more, (machine env site).Run (WhileServed (Addressed site) f index call) more
      later) ∧ OnlyFunction f call.meth later.parties.server.server := by
    refine leads.invariant (fun between =>
      (∃ more, (machine env site).Run (WhileServed (Addressed site) f index call) more between) ∧
        OnlyFunction f call.meth between.parties.server.server) ⟨⟨trace, run⟩, only⟩ ?_
    intro between after action earlier serving stepped
    obtain ⟨⟨more, run⟩, only⟩ := earlier
    refine ⟨⟨_, run.next ⟨addressed_of_serving serving, fun _ _ => only⟩ stepped⟩, ?_⟩
    refine onlyFunction_next only ?_ stepped
    cases action with
    | server action =>
        cases action with
        | registerRpc name g => exact False.elim serving
        | _ => trivial
    | _ => trivial
  exact both.1

/-- A call that waits can come back, and then with what the function gives for
its arguments. -/
theorem waiting_call_can_come_back (lawful : env.json.Lawful)
    (supported : ∀ type ∈ f.params, type.isArgument = true) {args : Tuple f.params}
    (passed : call.args = Tuple.toJson f.params args)
    (finite : ∀ argument ∈ call.args, argument.Finite) {trace : List Action}
    (run : (machine env site).Run (WhileServed (Careful site) f index call) trace state)
    (served : Network.ServedBy f index call state.parties)
    (setup : site.serverSetup.length ≤ state.traffic.handled (.receive .server))
    (named : site.rpcQueue ≠ []) (provided : Provided env site state index)
    {user : Nat} (waiting : Waiting site state index user call) :
    ∃ final outcome, (machine env site).Leads (Receiving index user) state final ∧
      conveyed (f.func args) = some outcome ∧
        .ended call outcome ∈ (final.parties.clients index).history := by
  obtain ⟨later, final, toLater, clients, toFinal, _, _, envelope, published, sameId, ended⟩ :=
    waiting.returns lawful (run.weaken And.left) setup named provided
  have onlyRun : (machine env site).Run (WhileServed (Addressed site) f index call) trace state :=
    run.weaken fun allowed => ⟨allowed.1.addressed, allowed.2⟩
  have reachable := Network.client_reachable
    (sound_of_run lawful (onlyRun.weaken And.left)).reachable index
  have isSent : Network.CallSent index call state.parties :=
    (Client.callsTold_of_reachable lawful reachable).follow user call _ waiting.inCall
  have isOpen : Network.CallOpen index call state.parties := fun outcome hasEnded =>
    (Client.oncePerCall_of_reachable lawful reachable).unended user call _ waiting.inCall call
      outcome hasEnded rfl
  obtain ⟨more, laterRun⟩ := whileServed_of_serving onlyRun (served isSent isOpen) toLater
  obtain ⟨networkTrace, networkRun⟩ :=
    @networkRun_of_guarded env site later lawful (WhileServed (Addressed site) f index call)
      (fun parties _ => Network.ServedBy f index call parties) And.left
      (fun _ _ allowed _ => allowed.2) more laterRun
  have given := Network.givenBy_of_run lawful (wellFormed_of_passed passed)
    (networkRun.weaken And.right)
  have gives : f.Gives call (callOutcome env envelope.body) := by
    refine given.published ?_ ?_ envelope published sameId
    · unfold Network.CallSent
      rw [clients]
      exact isSent
    · unfold Network.CallOpen
      rw [clients]
      exact isOpen
  exact ⟨final, _, (toLater.weaken receiving_of_serving).trans toFinal,
    gives.conveyed_eq supported passed finite, ended⟩

/-- The function is registered beside another one, and a thread waits for its
value at -7. -/
def isNegativeWait : List Action :=
  .server (.registerRpc (ascii "negative") isNegative) :: exampleSetup ++
    .client 0 (.call 0 (ascii "calls") (ascii "negative") [.int (-7)] (ascii "1")) ::
    List.replicate 9 (.client 0 (.advance (.user 0)))

private theorem isNegativeWait_registersOnly :
    ∀ action ∈ isNegativeWait, RegistersOnly isNegative (ascii "negative") action := by
  have others : ∀ action ∈ isNegativeWait.tail, (match action with
      | .server action => registersElsewhere (ascii "negative") action
      | _ => true) = true := by
    decide
  have parts : isNegativeWait =
      .server (.registerRpc (ascii "negative") isNegative) :: isNegativeWait.tail := rfl
  rw [parts, List.forall_mem_cons]
  refine ⟨fun _ => rfl, fun action member => ?_⟩
  have elsewhere := others action member
  cases action with
  | server action => exact registersOnly_of_elsewhere elsewhere
  | _ => trivial

/-- The thread of the example waits for the value at -7. -/
def waitsForNegative (state : State) : Bool :=
  match (state.parties.clients 0).users 0 with
  | .call call _ => asksNegative call
  | _ => false

theorem waiting_call_can_come_back_isNegative :
    ∃ state final call outcome, (machine ⟨codec, false⟩ exampleNames.site).Run
        (WhileServed (Careful exampleNames.site) isNegative 0 call) isNegativeWait state ∧
      (machine ⟨codec, false⟩ exampleNames.site).Leads (Receiving 0 0) state final ∧
        conveyed (isNegative.func (-7, ())) = some outcome ∧
          .ended call outcome ∈ (final.parties.clients 0).history := by
  have passed : ((machine ⟨codec, false⟩ exampleNames.site).execWhile careful isNegativeWait
      (machine ⟨codec, false⟩ exampleNames.site).init).any (fun state =>
        givenRequest state && waitsInGet state && waitsForNegative state) = true := by
    decide +kernel
  obtain ⟨state, run, passed⟩ := Machine.Run.of_execWhile_any careful_sound passed
  obtain ⟨both, waitsFor⟩ := Bool.and_eq_true_iff.mp passed
  obtain ⟨given, waits⟩ := Bool.and_eq_true_iff.mp both
  obtain ⟨call, waiting⟩ := waiting_of_waitsInGet waits
  have asks : asksNegative call = true := by
    unfold waitsForNegative at waitsFor
    rw [waiting.inCall] at waitsFor
    exact waitsFor
  obtain ⟨setup, provided⟩ := provided_of_givenRequest given
  obtain ⟨servedRun, served⟩ : (machine ⟨codec, false⟩ exampleNames.site).Run
      (WhileServed (Careful exampleNames.site) isNegative 0 call) isNegativeWait state ∧ _ :=
    whileServed_of_registersOnly run ((asksNegative_eq asks).1 ▸ isNegativeWait_registersOnly)
  obtain ⟨final, outcome, leads, conveys, ended⟩ :=
    waiting_call_can_come_back codec_lawful (by decide) (asksNegative_eq asks).2
      (finite_of_asksNegative asks) servedRun served setup (by decide) provided waiting
  exact ⟨state, final, call, outcome, servedRun, leads, conveys, ended⟩

end Deployment

end Ccmqsrv
