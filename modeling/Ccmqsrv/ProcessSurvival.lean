import Ccmqsrv.ClientCommands
import Ccmqsrv.Correlation
import Ccmqsrv.HandlerIds
import Ccmqsrv.ServerRobustness

/-!
# What ends a process

The server ends with the first exception that leaves a consumer callback or a
worker.  The requests that clients send never make it do so before a registered
function is called, as each of them can be decoded.  What is left are the
functions themselves, replies that cannot be sent, events without a type or
without data, and registrations.

A client ends with a reply that it cannot decode, or with an entry that is gone
when the event loop comes to it.
-/

namespace Ccmqsrv

open Foundations

variable {env : Env}

section Requests

variable {server : MessageQueueServer} {message : Message} {meth : Str} {args : List Json}

theorem rpcFind_missing (request : IsRequest env message meth args [])
    (missing : server.rpcFuncMap.lookup meth = none) :
    rpcFind env server message = .ok (.reply (initialRes message)) := by
  obtain ⟨data, loaded, decoded⟩ := request.decoded
  have noKws : parseMembers [] ([] : List (Str × Json)) = [] := parseMembers_eq_nil.mpr rfl
  unfold rpcFind
  rw [loaded, ok_bind, decoded, ok_bind]
  exact rpcRoute_missing noKws missing

/-- The lookup of a request ends with a call or with the unfilled reply. -/
theorem rpcFind_of_request (request : IsRequest env message meth args [])
    (server : MessageQueueServer) :
    rpcFind env server message = .ok (.call meth (args.map parseJsonElement)) ∨
      rpcFind env server message = .ok (.reply (initialRes message)) := by
  cases registered : server.rpcFuncMap.lookup meth with
  | none => exact Or.inr (rpcFind_missing request registered)
  | some function =>
      refine Or.inl (rpcFind_call request ?_)
      rw [registered]
      rfl

end Requests

section Workers

/-- The process survives the next step of the worker. -/
def Survives (server : MessageQueueServer) : Task → Prop
  | .rpc _ => True
  | .rpcCall _ meth args =>
      ∃ f, server.rpcFuncMap.lookup meth = some (some f) ∧ Handled f args
  | .rpcReply message res => res ≠ initialRes message ∧ validUtf8 res.error = true
  | .event eventType cbId eventData =>
      ∃ f, (handlersAt server eventType).lookup cbId = some (some f) ∧
        Handled f [.string eventType, eventData]

deriving instance DecidableEq for Res

instance : DecidablePred Caught
  | .ok value => inferInstanceAs (Decidable value.document.ValidUtf8)
  | .error (.runtimeError _) => isTrue trivial
  | .error .badAnyCast => isFalse id
  | .error .badFunctionCall => isFalse id
  | .error .jsonException => isFalse id
  | .error (.baseException _ _) => isFalse id
  | .error .stdException => isFalse id

/-- The function gets its arguments, and its outcome is as wanted. -/
instance (f : Handler) (data : List Any) (wanted : Except Exn Returned → Prop)
    [DecidablePred wanted] :
    Decidable (∃ args, getTuple f.params data = .ok args ∧ wanted (f.func args)) :=
  match converted : getTuple f.params data with
  | .ok args => decidable_of_iff (wanted (f.func args))
      ⟨fun isWanted => ⟨args, rfl, isWanted⟩, fun some => by
        obtain ⟨other, same, isWanted⟩ := some
        cases same
        exact isWanted⟩
  | .error _ => isFalse fun some => by
      obtain ⟨other, same, _⟩ := some
      cases same

instance (f : Handler) (data : List Any) : Decidable (Handled f data) :=
  inferInstanceAs (Decidable (∃ args, getTuple f.params data = .ok args ∧ Caught (f.func args)))

/-- The function is registered, and it does what is wanted. -/
instance (function : Option Function) (wanted : Handler → Prop) [DecidablePred wanted] :
    Decidable (∃ f, function = some (some f) ∧ wanted f) :=
  match function with
  | some (some f) => decidable_of_iff (wanted f)
      ⟨fun isWanted => ⟨f, rfl, isWanted⟩, fun some => by
        obtain ⟨other, same, isWanted⟩ := some
        cases same
        exact isWanted⟩
  | some none => isFalse fun some => by
      obtain ⟨other, same, _⟩ := some
      cases same
  | none => isFalse fun some => by
      obtain ⟨other, same, _⟩ := some
      cases same

instance (server : MessageQueueServer) : DecidablePred (Survives server)
  | .rpc _ => isTrue trivial
  | .rpcCall _ meth args =>
      inferInstanceAs (Decidable (∃ f, server.rpcFuncMap.lookup meth = some (some f) ∧ Handled f args))
  | .rpcReply message res =>
      inferInstanceAs (Decidable (res ≠ initialRes message ∧ validUtf8 res.error = true))
  | .event eventType cbId eventData =>
      inferInstanceAs (Decidable (∃ f, (handlersAt server eventType).lookup cbId = some (some f) ∧
        Handled f [.string eventType, eventData]))

variable {server : MessageQueueServer} {message : Message} {meth : Str} {args : List Json}
  {tables : List MessageQueueServer}

/-- The call of a function gets past the `try` block exactly when its worker
survives. -/
private theorem rpcCall_survives (lawful : env.json.Lawful) {data : List Any} :
    (∃ res, (rpcCall env server message meth data).2.outcome = .ok res) ↔
      Survives server (.rpcCall message meth data) := by
  constructor
  · intro called
    obtain ⟨res, called⟩ := called
    obtain ⟨f, registered, caught⟩ := rpcCall_eq_ok called
    obtain ⟨tuple, converted, isCaught, _⟩ := call_eq_ok lawful caught
    exact ⟨f, registered, tuple, converted, isCaught⟩
  · intro survives
    obtain ⟨f, registered, tuple, converted, isCaught⟩ := survives
    obtain ⟨res, called, _⟩ := call_of_caught lawful message converted isCaught
    refine ⟨res, ?_⟩
    rw [rpcCall_of_lookup registered]
    exact called

theorem ne_initialRes_of_answers (lawful : env.json.Lawful) {res : Res} {document : Json}
    (answers : res.Answers env message document) : res ≠ initialRes message := by
  intro same
  have parsed := answers.result_eq
  rw [same] at parsed
  exact absurd (parsed.symm.trans lawful.parse_nil) (Option.some_ne_none _)

/-- A prepared reply is sent exactly when its worker survives. -/
private theorem sendReply_survives (lawful : env.json.Lawful)
    (request : IsRequest env message meth args []) {res : Res}
    (prepared : Prepared env tables message res) :
    (∃ envelope, sendReply env res = .ok envelope) ↔
      Survives server (.rpcReply message res) := by
  cases prepared with
  | @found finder _ member looked =>
      have isInitial : res = initialRes message := by
        rcases rpcFind_of_request request finder with isCall | isReply
        · rw [isCall] at looked
          cases looked
        · rw [isReply] at looked
          cases looked
          rfl
      constructor
      · intro sent
        obtain ⟨envelope, sent⟩ := sent
        rw [isInitial, sendReply_initialRes lawful] at sent
        cases sent
      · intro survives
        exact absurd isInitial survives.1
  | called finderMember looked member called =>
      obtain ⟨f, registered, caught⟩ := rpcCall_eq_ok called
      obtain ⟨tuple, converted, isCaught, outcome⟩ := call_eq_ok lawful caught
      obtain ⟨document, answers⟩ : ∃ document, res.Answers env message document := by
        generalize f.func tuple = result at outcome
        cases outcome with
        | returned noError answers => exact ⟨_, answers⟩
        | failed errorEq answers => exact ⟨.null, answers⟩
      rw [sendReply_of_answers lawful answers]
      constructor
      · intro valid
        exact ⟨ne_initialRes_of_answers lawful answers, valid.2⟩
      · intro survives
        exact ⟨request.validUtf8_id lawful, survives.2⟩

private theorem eventWorker_survives (lawful : env.json.Lawful) {eventType : Str} {cbId : Int}
    {eventData : Any} :
    (eventWorker env server eventType cbId eventData).2.outcome = .ok () ↔
      Survives server (.event eventType cbId eventData) := by
  cases found : (handlersAt server eventType).lookup cbId with
  | none =>
      constructor
      · intro done
        unfold eventWorker at done
        rw [functionAt_of_lookup_none found] at done
        cases done
      · intro survives
        obtain ⟨f, registered, _⟩ := survives
        rw [found] at registered
        cases registered
  | some function =>
      rw [eventWorker_of_lookup found]
      cases function with
      | none =>
          constructor
          · intro done
            cases done
          · intro survives
            obtain ⟨f, registered, _⟩ := survives
            rw [found] at registered
            cases registered
      | some f =>
          refine (eventCatch_callFunction lawful).trans ?_
          constructor
          · intro handled
            exact ⟨f, found, handled⟩
          · intro survives
            obtain ⟨other, registered, handled⟩ := survives
            rw [found] at registered
            cases registered
            exact handled

/-- What is known of a worker: it is that of an event, or it serves a request that
can be read. -/
def WorkerOf (env : Env) (tables : List MessageQueueServer) (task : Task) : Prop :=
  (∃ eventType cbId eventData, task = .event eventType cbId eventData) ∨
    ∃ message meth args, IsRequest env message meth args [] ∧ Stands env tables message task

/-- Exactly the workers described end the process in their next step. -/
theorem workStep_survives (lawful : env.json.Lawful) {task : Task}
    (worker : WorkerOf env tables task) :
    (∃ left, (workStep env server task).2.outcome = .ok left) ↔ Survives server task := by
  rcases worker with ⟨eventType, cbId, eventData, rfl⟩ | ⟨message, meth, args, request, stands⟩
  · rw [← eventWorker_survives lawful]
    constructor
    · intro done
      obtain ⟨left, done⟩ := done
      obtain ⟨_, called, _⟩ := bind_eq_ok.mp done
      exact called
    · intro done
      exact ⟨([], []), bind_eq_ok.mpr ⟨(), done, rfl⟩⟩
  · cases stands with
    | rpc =>
        refine ⟨fun _ => trivial, fun _ => ?_⟩
        rcases rpcFind_of_request request server with looked | looked
        · exact ⟨_, bind_eq_ok.mpr ⟨_, looked, rfl⟩⟩
        · exact ⟨_, bind_eq_ok.mpr ⟨_, looked, rfl⟩⟩
    | rpcCall member looked =>
        refine Iff.trans ?_ (rpcCall_survives lawful)
        constructor
        · intro done
          obtain ⟨left, done⟩ := done
          obtain ⟨res, called, _⟩ := bind_eq_ok.mp done
          exact ⟨res, called⟩
        · intro called
          obtain ⟨res, called⟩ := called
          exact ⟨_, bind_eq_ok.mpr ⟨res, called, rfl⟩⟩
    | rpcReply prepared =>
        rw [← sendReply_survives lawful request prepared]
        constructor
        · intro done
          obtain ⟨left, done⟩ := done
          obtain ⟨envelope, sent, _⟩ := bind_eq_ok.mp done
          exact ⟨envelope, sent⟩
        · intro sent
          obtain ⟨envelope, sent⟩ := sent
          exact ⟨_, bind_eq_ok.mpr ⟨envelope, sent, rfl⟩⟩

/-- What a step of a worker leaves to do, and what it publishes. -/
inductive Leaves (env : Env) (server : MessageQueueServer) :
    Task → List Task → List Envelope → Prop
  | looked {message : Message} {lookup : Lookup} : rpcFind env server message = .ok lookup →
      Leaves env server (.rpc message) [afterLookup message lookup] []
  | called {message : Message} {meth : Str} {args : List Any} {res : Res} :
      (rpcCall env server message meth args).2.outcome = .ok res →
        Leaves env server (.rpcCall message meth args) [.rpcReply message res] []
  | replied {message : Message} {res : Res} {envelope : Envelope} :
      sendReply env res = .ok envelope →
        Leaves env server (.rpcReply message res) [] [envelope]
  | handled {eventType : Str} {cbId : Int} {eventData : Any} :
      Leaves env server (.event eventType cbId eventData) [] []

theorem leaves_of_workStep {server : MessageQueueServer} {task : Task} {next : List Task}
    {published : List Envelope} (worked : (workStep env server task).2.outcome = .ok (next, published)) :
    Leaves env server task next published := by
  cases task with
  | rpc message =>
      obtain ⟨lookup, looked, returned⟩ := bind_eq_ok.mp worked
      cases returned
      exact Leaves.looked looked
  | rpcCall message meth args =>
      obtain ⟨res, called, returned⟩ := bind_eq_ok.mp worked
      cases returned
      exact Leaves.called called
  | rpcReply message res =>
      obtain ⟨envelope, sent, returned⟩ := bind_eq_ok.mp worked
      cases returned
      exact Leaves.replied sent
  | event eventType cbId eventData =>
      obtain ⟨_, _, returned⟩ := bind_eq_ok.mp worked
      cases returned
      exact Leaves.handled

end Workers

/-- The body is a document whose first two items are a type and data. -/
def IsEvent (env : Env) (body : Str) : Prop :=
  ∃ document eventType eventData, env.json.parse (cString body) = some document ∧
    (jsonItems document)[0]? = some (.string eventType) ∧
      (jsonItems document)[1]? = some eventData

theorem exists_onEventMessage_iff {server : MessageQueueServer} {body : Str} :
    (∃ tasks, onEventMessage env server body = .ok tasks) ↔ IsEvent env body := by
  constructor
  · intro received
    obtain ⟨tasks, received⟩ := received
    obtain ⟨document, eventType, eventData, parsed, zeroth, first, _⟩ :=
      onEventMessage_eq_ok.mp received
    exact ⟨document, eventType, eventData, parsed, zeroth, first⟩
  · intro isEvent
    obtain ⟨document, eventType, eventData, parsed, zeroth, first⟩ := isEvent
    exact ⟨_, onEventMessage_eq_ok.mpr ⟨document, eventType, eventData, parsed, zeroth, first, rfl⟩⟩

namespace Network

/-- Arguments and event data are values of `json`. -/
def Formed (state : State) (action : Action) : Prop :=
  ∀ index clientAction, action = .client index clientAction →
    Client.Addresses Client.anyUsage (state.clients index) clientAction

/-- The step ends the server. -/
def Ends (env : Env) (state : State) : Action → Prop
  | .server (.work place) => ∃ task, state.server.tasks[place]? = some task ∧
      ¬ Survives state.server.server task
  | .server (.registerEventHandler _ _) => state.server.server.evtCbId = intMax
  | .server (.eventMessage body) => ¬ IsEvent env body
  | _ => False

/-- Values are values of `json`, no step ends the server, and no call erases its
entry while the event loop of its client is handling a reply to it. -/
structure Careful (env : Env) (state : State) (action : Action) : Prop where
  formed : Formed state action
  keeps : ¬ Ends env state action
  atRest : ErasedAtRest state action

variable {configs : Nat → Client.Config} {state after : State} {action : Action}

theorem server_reachable {configs : Nat → Client.Config} 
    (reachable : (machine env configs).Reachable state) :
    (Server.machine env).Reachable state.server := by
  refine reachable.invariant (fun state => (Server.machine env).Reachable state.server) ?_ ?_
  · exact Machine.Reachable.start _
  · intro _ _ _ _ held stepped
    cases step_effect stepped with
    | client notDelivery fresh moved => exact held
    | @server action next notRequest moved =>
        have later : (Server.machine env).Reachable next := held.next moved
        exact later
    | @request index call message next sent moved =>
        have stepped : (Server.machine env).step _ (.rpcMessage message) = some next := moved
        have later : (Server.machine env).Reachable next := held.next stepped
        exact later
    | reply published addressed moved => exact held

/-- The workers are those of events and of requests. -/
theorem workerOf_of_reachable (lawful : env.json.Lawful)
    (reachable : (machine env configs).Reachable state)
    (wellFormed : ∀ index call message, .sent call message ∈ (state.clients index).history →
      ∀ argument ∈ call.args, argument.WellFormed)
    {task : Task} (member : task ∈ state.server.tasks) : WorkerOf env state.tables task := by
  have linked := linked_of_reachable reachable
  refine (linked.attributed.tasks task member).imp_right fun attribution => ?_
  obtain ⟨message, ⟨index, call, sent⟩, works⟩ := attribution
  exact ⟨message, _, _, isRequest_of_sent lawful reachable (wellFormed index call message sent)
    sent, works.stands⟩

private theorem workerOf_of_run (lawful : env.json.Lawful) {trace : List Action}
    (run : (machine env configs).Run Formed trace state) {task : Task}
    (member : task ∈ state.server.tasks) : WorkerOf env state.tables task := by
  refine workerOf_of_reachable lawful run.reachable ?_ member
  intro index call message sent
  have runs : ∃ clientTrace, (Client.machine env (configs index)).Run
      (Client.Addresses Client.anyUsage) clientTrace (state.clients index) :=
    clientRun (fun formed _ => formed _ _ rfl) (fun _ _ => trivial) run index
  obtain ⟨clientTrace, clientRun⟩ := runs
  exact (Client.usedAs_of_run clientRun).formed call message sent

private theorem server_ends (lawful : env.json.Lawful) {trace : List Action}
    (run : (machine env configs).Run Formed trace state)
    (stepped : step env configs state action = some after)
    (alive : state.server.fault = none) :
    after.server.fault ≠ none ↔ Ends env state action := by
  have still : after.server.fault = none → ¬ Ends env state action →
      (after.server.fault ≠ none ↔ Ends env state action) := by
    intro survived notEnds
    exact ⟨fun ended => absurd survived ended, fun ends => absurd ends notEnds⟩
  cases step_effect stepped with
  | client notDelivery fresh moved => exact still alive id
  | reply published addressed moved => exact still alive id
  | request sent moved =>
      cases (Server.step_effect moved).2 with
      | rpcMessage message => exact still alive id
  | server notRequest moved =>
      cases (Server.step_effect moved).2 with
      | rpcMessage message => exact absurd rfl (notRequest message)
      | registerRpc missing => exact still alive id
      | registerRpcTaken taken => exact still alive id
      | unregisterRpc name => exact still alive id
      | unregisterEventHandler walk => exact still alive id
      | eventMessage received =>
          exact still alive fun ends => ends (exists_onEventMessage_iff.mp ⟨_, received⟩)
      | eventMessageFault failed =>
          refine ⟨fun _ isEvent => ?_, fun _ => Option.some_ne_none _⟩
          obtain ⟨tasks, received⟩ := exists_onEventMessage_iff.mpr isEvent
          rw [failed] at received
          cases received
      | registerEventHandler registered =>
          exact still alive (registerEventHandler_eq_ok registered).1
      | registerEventHandlerFault failed =>
          refine ⟨fun _ => ?_, fun _ => Option.some_ne_none _⟩
          by_contra room
          have fit := Server.idsFit_of_reachable (server_reachable run.reachable)
          rw [fit.registerEventHandler_eq room] at failed
          cases failed
      | @work place task server calls next published found worked =>
          refine still alive ?_
          intro ends
          obtain ⟨other, same, perishes⟩ := ends
          rw [found] at same
          cases same
          have outcome := congrArg (fun worked => worked.2.outcome) worked
          have worker := workerOf_of_run lawful run (List.mem_of_getElem? found)
          exact perishes ((workStep_survives lawful worker).mp ⟨_, outcome⟩)
      | @workFault place task server calls fault found worked =>
          refine ⟨fun _ => ⟨task, found, ?_⟩, fun _ => Option.some_ne_none _⟩
          intro survives
          have worker := workerOf_of_run lawful run (List.mem_of_getElem? found)
          obtain ⟨left, done⟩ := (workStep_survives lawful worker).mpr survives
          rw [worked] at done
          cases done

section Computed

/-- `Formed`, computed. -/
def formed (_ : State) : Action → Bool
  | .client _ (.call _ _ _ args _) => args.all fun argument => decide argument.WellFormed
  | .client _ (.publish _ _ _ eventData) => decide eventData.WellFormed
  | _ => true

theorem formed_sound (state : State) (action : Action) (passed : formed state action = true) :
    Formed state action := by
  intro index clientAction same
  subst same
  cases clientAction with
  | call user routingKey meth args uuid =>
      exact ⟨trivial, fun argument member =>
        of_decide_eq_true (List.all_eq_true.mp passed argument member)⟩
  | publish user routingKey evtType eventData => exact ⟨trivial, of_decide_eq_true passed⟩
  | _ => trivial

/-- `Careful`, computed. -/
def careful (env : Env) (state : State) (action : Action) : Bool :=
  formed state action && erasedAtRest state action &&
    match action with
    | .server (.work place) => state.server.tasks[place]?.all fun task =>
        decide (Survives state.server.server task)
    | .server (.registerEventHandler _ _) => state.server.server.evtCbId != intMax
    | .server (.eventMessage body) => (onEventMessage env state.server.server body).isOk
    | _ => true

theorem careful_sound (state : State) (action : Action) (passed : careful env state action = true) :
    Careful env state action := by
  obtain ⟨both, rest⟩ := Bool.and_eq_true_iff.mp passed
  obtain ⟨isFormed, atRest⟩ := Bool.and_eq_true_iff.mp both
  refine ⟨formed_sound state action isFormed, ?_, erasedAtRest_sound state action atRest⟩
  intro ends
  match action with
  | .server (.work place) =>
      obtain ⟨task, found, perishes⟩ := ends
      have survive : (state.server.tasks[place]?.all fun task =>
          decide (Survives state.server.server task)) = true := rest
      rw [found] at survive
      exact perishes (of_decide_eq_true survive)
  | .server (.registerEventHandler _ _) => exact bne_iff_ne.mp rest ends
  | .server (.eventMessage body) =>
      have received : (onEventMessage env state.server.server body).isOk = true := rest
      cases accepted : onEventMessage env state.server.server body with
      | ok tasks => exact ends (exists_onEventMessage_iff.mp ⟨tasks, accepted⟩)
      | error fault =>
          rw [accepted] at received
          cases received

end Computed

/-- The server is ended by calls and handlers that fail, by replies that cannot
be sent, by a message that is no event and by the last registration that fits,
and by nothing else. -/
theorem server_ends_iff (lawful : env.json.Lawful) {trace : List Action}
    (run : (machine env configs).Run Formed trace state)
    (stepped : step env configs state action = some after)
    (alive : state.server.fault = none) :
    after.server.fault ≠ none ↔ Ends env state action :=
  server_ends lawful run stepped alive

/-- A request for a method that nobody has registered, up to the worker that has
no result to send. -/
def missingCall : List Action :=
  Client.sentCall.map (.client 0) ++ [.request 0 plainRequest, .server (.work 0)]

theorem server_ends_iff_missingCall :
    ∃ state after, (machine ⟨codec, false⟩ fun _ => Client.exampleConfig).Run Formed missingCall
      state ∧
        step ⟨codec, false⟩ (fun _ => Client.exampleConfig) state (.server (.work 0)) =
            some after ∧
          after.server.fault ≠ none := by
  have passed : (((machine ⟨codec, false⟩ fun _ => Client.exampleConfig).execWhile formed
      missingCall (machine ⟨codec, false⟩ fun _ => Client.exampleConfig).init).any fun state =>
        state.server.fault.isNone &&
          (step ⟨codec, false⟩ (fun _ => Client.exampleConfig) state (.server (.work 0))).isSome &&
            state.server.tasks[0]?.any fun task =>
              decide (¬ Survives state.server.server task)) = true := by
    decide +kernel
  obtain ⟨state, run, reached⟩ := Machine.Run.of_execWhile_any formed_sound passed
  obtain ⟨both, perishes⟩ := Bool.and_eq_true_iff.mp reached
  obtain ⟨alive, works⟩ := Bool.and_eq_true_iff.mp both
  obtain ⟨after, stepped⟩ := Option.isSome_iff_exists.mp works
  obtain ⟨task, found, isEnd⟩ := Option.any_eq_true _ _ |>.mp perishes
  refine ⟨state, after, run, stepped, ?_⟩
  have lawful : (Env.mk codec false).json.Lawful := codec_lawful
  exact (server_ends_iff lawful run stepped (Option.isNone_iff_eq_none.mp alive)).mpr
    ⟨task, found, of_decide_eq_true isEnd⟩

section Clients

private theorem attentive_init : Client.Attentive env {} := by
  constructor
  · rfl
  · intro response decoding
    cases decoding
  · intro id handles
    exact False.elim handles
  · intro id present
    cases present

private theorem attentive_putClient {index : Nat} {client : Client.State}
    (attentive : ∀ index, Client.Attentive env (state.clients index))
    (moved : Client.Attentive env client) (other : Nat) :
    Client.Attentive env ((state.putClient index client).clients other) := by
  by_cases same : other = index
  · subst same
    rw [State.putClient_self]
    exact moved
  · rw [State.putClient_of_ne _ _ same]
    exact attentive other

private theorem attentive_next (lawful : env.json.Lawful)
    (reachable : (machine env configs).Reachable state) (atRest : ErasedAtRest state action)
    (stepped : step env configs state action = some after)
    (attentive : ∀ index, Client.Attentive env (state.clients index)) (other : Nat) :
    Client.Attentive env (after.clients other) := by
  have consistent := fun index => Client.consistent_of_reachable (client_reachable reachable index)
  cases step_effect stepped with
  | server notRequest moved => exact attentive other
  | request sent moved => exact attentive other
  | @client index clientAction next notDelivery fresh moved =>
      have repliesAtRest : Client.RepliesAtRest env (state.clients index) clientAction :=
        ⟨fun response same => absurd same (notDelivery response), atRest index clientAction rfl⟩
      exact attentive_putClient attentive
        ((attentive index).next (consistent index) repliesAtRest (Client.step_effect moved).2) other
  | @reply index envelope next published addressed moved =>
      obtain ⟨asked, _, replies⟩ :=
        (linked_of_reachable reachable).attributed.published envelope published
      have repliesAtRest : Client.RepliesAtRest env (state.clients index)
          (.deliver (responseOf envelope)) := by
        constructor
        · intro response same
          cases same
          exact (replies.sent lawful).2.2
        · intro user call ret impossible
          cases impossible
      exact attentive_putClient attentive
        ((attentive index).next (consistent index) repliesAtRest (Client.step_effect moved).2) other

/-- In a careful run the server lives and the event loops find what they need. -/
theorem attentive_of_run (lawful : env.json.Lawful) {trace : List Action}
    (run : (machine env configs).Run (Careful env) trace state) :
    state.server.fault = none ∧ ∀ index, Client.Attentive env (state.clients index) := by
  refine run.invariant (fun _ state => state.server.fault = none ∧
    ∀ index, Client.Attentive env (state.clients index)) ?_ ?_
  · exact ⟨rfl, fun _ => attentive_init⟩
  · intro _ _ _ _ earlier held careful stepped
    constructor
    · by_contra ended
      exact careful.keeps ((server_ends lawful (earlier.weaken Careful.formed) stepped held.1).mp
        ended)
    · exact attentive_next lawful earlier.reachable careful.atRest stepped held.2

/-- In a careful run no process ends. -/
theorem processes_survive (lawful : env.json.Lawful) {trace : List Action}
    (run : (machine env configs).Run (Careful env) trace state) :
    state.server.fault = none ∧ ∀ index, (state.clients index).fault = none := by
  obtain ⟨alive, attentive⟩ := attentive_of_run lawful run
  exact ⟨alive, fun index => (attentive index).alive⟩

theorem processes_survive_repliedCall :
    ∃ state, (machine ⟨codec, false⟩ fun _ => Client.exampleConfig).Run (Careful ⟨codec, false⟩)
        (repliedCall ++ .client 0 (.wake 0 .noTimeout) ::
          List.replicate 5 (.client 0 (.advance (.user 0)))) state ∧
      state.server.fault = none ∧ ∀ index, (state.clients index).fault = none := by
  have passed : (((machine ⟨codec, false⟩ fun _ => Client.exampleConfig).execWhile
      (careful ⟨codec, false⟩) (repliedCall ++ .client 0 (.wake 0 .noTimeout) ::
        List.replicate 5 (.client 0 (.advance (.user 0))))
      (machine ⟨codec, false⟩ fun _ => Client.exampleConfig).init).any fun _ => true) = true := by
    decide +kernel
  obtain ⟨state, run, _⟩ := Machine.Run.of_execWhile_any careful_sound passed
  have lawful : (Env.mk codec false).json.Lawful := codec_lawful
  exact ⟨state, run, processes_survive lawful run⟩

end Clients

end Network

end Ccmqsrv
