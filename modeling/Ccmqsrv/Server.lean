import Ccmqsrv.CallProxy
import Ccmqsrv.Foundations.Machine

/-!
# The message queue server

The server keeps a table of remote procedures and a table of event handlers.
Its consumer callbacks run on one thread and hand each message to a worker of
the thread pool; a worker looks its function up again when it runs.

An RPC worker is cut where the tables can change under it: between `find` and
`operator[]`, and before the reply is sent.  Registration calls, consumer
callbacks and event workers are single steps.
-/

namespace Ccmqsrv

open Foundations

/-- `std::function<void(Res*, std::vector<std::any>&)>`; `none` is empty. -/
abbrev Function := Option Handler

/-- The tables of `MessageQueueServer`. -/
structure MessageQueueServer where
  evtCbId : Int := 0
  eventHandlerMap : OrderedMap Str (OrderedMap Int Function) := .empty
  rpcFuncMap : OrderedMap Str Function := .empty

/-- What the server reads of an `AMQP::Message`. -/
structure Message where
  body : Str
  correlationID : Str
  replyTo : Str
  deriving DecidableEq

/-- A message published to the default exchange. -/
structure Envelope where
  routingKey : Str
  correlationID : Str
  body : Str
  deriving DecidableEq

/-- `map[key]` on a table of functions: a missing entry is created empty. -/
def functionAt {K : Type} [LinearOrder K] (map : OrderedMap K Function) (key : K) :
    Function × OrderedMap K Function :=
  match map.lookup key with
  | some function => (function, map)
  | none => (none, map.insert key none)

theorem functionAt_of_lookup {K : Type} [LinearOrder K] {map : OrderedMap K Function}
    {key : K} {function : Function} (found : map.lookup key = some function) :
    functionAt map key = (function, map) := by
  unfold functionAt
  rw [found]

theorem functionAt_of_lookup_none {K : Type} [LinearOrder K] {map : OrderedMap K Function}
    {key : K} (missing : map.lookup key = none) :
    functionAt map key = (none, map.insert key none) := by
  unfold functionAt
  rw [missing]

/-- `event_handler_map[event_type]` -/
def handlersAt (server : MessageQueueServer) (eventType : Str) : OrderedMap Int Function :=
  (server.eventHandlerMap.lookup eventType).getD .empty

theorem handlersAt_insert (server : MessageQueueServer) (eventType other : Str)
    (handlers : OrderedMap Int Function) :
    handlersAt { server with
      eventHandlerMap := server.eventHandlerMap.insert eventType handlers } other =
        if other = eventType then handlers else handlersAt server other := by
  unfold handlersAt
  simp only [OrderedMap.lookup_insert]
  split <;> rfl

theorem mem_keys_of_handlersAt {server : MessageQueueServer} {eventType : Str} {cbId : Int}
    (present : ((handlersAt server eventType).lookup cbId).isSome = true) :
    eventType ∈ server.eventHandlerMap.keys := by
  rw [OrderedMap.mem_keys_iff]
  unfold handlersAt at present
  cases looked : server.eventHandlerMap.lookup eventType with
  | none =>
      rw [looked] at present
      cases present
  | some handlers => rfl

/-- Calling a `std::function`. -/
def callFunction (env : Env) (function : Function) (res : Res) (data : List Any) :
    Recorded Res :=
  match function with
  | some f => callproxy env f res data
  | none => { calls := [], outcome := throwing .badFunctionCall }

/-- A worker of the thread pool, at the place where it will go on. -/
inductive Task where
  | rpc (message : Message)
  | rpcCall (message : Message) (meth : Str) (args : List Any)
  | rpcReply (message : Message) (res : Res)
  | event (eventType : Str) (cbId : Int) (eventData : Any)

/-- `Res res{1, req_id, reply_to, "", ""}` -/
def initialRes (message : Message) : Res :=
  { type := 1, msgid := message.correlationID, replyTo := message.replyTo }

/-- The handlers of the `try` block of `_rpc_worker`.  `throw e` copies the
exception as a plain `std::exception`. -/
def rpcCatch (env : Env) (res : Res) : Cpp Res → Cpp Res
  | .ok after => .ok after
  | .error (.thrown (.runtimeError message)) => do
      let result ← jsonDump env (.array [.null])
      return { res with error := cString message, result }
  | .error (.thrown _) => throwing .stdException
  | .error fault => .error fault

/-- Where the `try` block of `_rpc_worker` stands after the lookup: about to
call the function found, or past the block with a reply to send. -/
inductive Lookup where
  | call (meth : Str) (args : List Any)
  | reply (res : Res)

def keywordError : Str :=
  ascii "Invalid parameter passing mode<k: v>"

/-- The `try` block of `_rpc_worker` up to and including `rpc_func_map.find`. -/
def rpcRoute (env : Env) (server : MessageQueueServer) (message : Message)
    (request : Request) : Cpp Lookup :=
  if !request.kws.isEmpty then do
    let res ← rpcCatch env (initialRes message) (throwing (.runtimeError keywordError))
    return .reply res
  else if (server.rpcFuncMap.lookup request.meth).isSome then
    .ok (.call request.meth request.args)
  else
    .ok (.reply (initialRes message))

/-- `_rpc_worker` up to the lookup. -/
def rpcFind (env : Env) (server : MessageQueueServer) (message : Message) : Cpp Lookup := do
  let bodyVec ← jsonLoadb env message.body
  let request ← rpcDecodeReq env bodyVec message.correlationID
  rpcRoute env server message request

/-- `rpc_func_map[meth](&res, args)` -/
def rpcCall (env : Env) (server : MessageQueueServer) (message : Message) (meth : Str)
    (args : List Any) : MessageQueueServer × Recorded Res :=
  let (function, rpcFuncMap) := functionAt server.rpcFuncMap meth
  ({ server with rpcFuncMap },
    (callFunction env function (initialRes message) args).andThen
      (rpcCatch env (initialRes message)))

theorem rpcCall_of_lookup {env : Env} {server : MessageQueueServer} {message : Message}
    {meth : Str} {args : List Any} {function : Function}
    (found : server.rpcFuncMap.lookup meth = some function) :
    rpcCall env server message meth args =
      (server, (callFunction env function (initialRes message) args).andThen
        (rpcCatch env (initialRes message))) := by
  unfold rpcCall
  rw [functionAt_of_lookup found]

/-- `send_reply` -/
def sendReply (env : Env) (res : Res) : Cpp Envelope := do
  let result ← jsonAt (← jsonParse env res.result) 0
  let body ← jsonDump env
    (.array [.int res.type.toInt, .string res.msgid, .string res.error, result])
  return { routingKey := res.replyTo, correlationID := res.msgid, body }

/-- `_rpc_worker` when nothing else touches the tables while it runs. -/
def rpcWorker (env : Env) (server : MessageQueueServer) (message : Message) :
    MessageQueueServer × Cpp Envelope :=
  match rpcFind env server message with
  | .ok (.call meth args) =>
      let (after, called) := rpcCall env server message meth args
      (after, called.outcome >>= sendReply env)
  | .ok (.reply res) => (server, sendReply env res)
  | .error fault => (server, .error fault)

theorem rpcWorker_call {env : Env} {server : MessageQueueServer} {message : Message}
    {meth : Str} {args : List Any} {function : Function}
    (looked : rpcFind env server message = .ok (.call meth args))
    (found : server.rpcFuncMap.lookup meth = some function) :
    rpcWorker env server message =
      (server, rpcCatch env (initialRes message)
          (callFunction env function (initialRes message) args).outcome >>= sendReply env) := by
  unfold rpcWorker
  rw [looked]
  simp only [rpcCall_of_lookup found, Recorded.andThen]

theorem rpcWorker_reply {env : Env} {server : MessageQueueServer} {message : Message}
    {res : Res} (looked : rpcFind env server message = .ok (.reply res)) :
    rpcWorker env server message = (server, sendReply env res) := by
  unfold rpcWorker
  rw [looked]

/-- One worker for each handler of the event type. -/
def eventTasks (server : MessageQueueServer) (eventType : Str) (eventData : Any) : List Task :=
  match server.eventHandlerMap.lookup eventType with
  | none => []
  | some handlers => handlers.keys.map fun cbId => .event eventType cbId eventData

/-- `_on_event_message`.  The body is read as a zero-terminated string. -/
def onEventMessage (env : Env) (server : MessageQueueServer) (body : Str) :
    Cpp (List Task) := do
  let bodyVec ← jsonLoadb env (cString body)
  let eventType ← anyCast Any.asString (← subscript bodyVec 0)
  let eventData ← subscript bodyVec 1
  return eventTasks server eventType eventData

theorem eventTasks_eq (server : MessageQueueServer) (eventType : Str) (eventData : Any) :
    eventTasks server eventType eventData =
      (handlersAt server eventType).keys.map fun cbId => .event eventType cbId eventData := by
  unfold eventTasks handlersAt
  cases server.eventHandlerMap.lookup eventType with
  | none => rfl
  | some handlers => rfl

/-- The handlers of the `try` block of `_event_worker`. -/
def eventCatch : Cpp Res → Cpp Unit
  | .ok _ => .ok ()
  | .error (.thrown (.runtimeError _)) => .ok ()
  | .error (.thrown _) => throwing .stdException
  | .error fault => .error fault

/-- `_event_worker` -/
def eventWorker (env : Env) (server : MessageQueueServer) (eventType : Str) (cbId : Int)
    (eventData : Any) : MessageQueueServer × Recorded Unit :=
  let (function, handlers) := functionAt (handlersAt server eventType) cbId
  ({ server with eventHandlerMap := server.eventHandlerMap.insert eventType handlers },
    (callFunction env function {} [.string eventType, eventData]).andThen eventCatch)

theorem eventWorker_of_lookup {env : Env} {server : MessageQueueServer} {eventType : Str} {cbId : Int} {eventData : Any}
    {function : Function}
    (found : (handlersAt server eventType).lookup cbId = some function) :
    eventWorker env server eventType cbId eventData =
      (server,
        (callFunction env function {} [.string eventType, eventData]).andThen eventCatch) := by
  have present : server.eventHandlerMap.lookup eventType =
      some (handlersAt server eventType) := by
    unfold handlersAt at found ⊢
    cases looked : server.eventHandlerMap.lookup eventType with
    | none =>
        rw [looked] at found
        cases found
    | some handlers => rfl
  unfold eventWorker
  rw [functionAt_of_lookup found]
  simp only [OrderedMap.insert_of_lookup present]

/-- `register_rpc` -/
def registerRpc (server : MessageQueueServer) (name : Str) (func : Handler) :
    Cpp MessageQueueServer :=
  if (server.rpcFuncMap.lookup name).isSome then
    throwing (.runtimeError (ascii "rpc function already exists"))
  else
    .ok { server with rpcFuncMap := server.rpcFuncMap.insert name (some func) }

theorem registerRpc_free {server : MessageQueueServer} {name : Str} {func : Handler}
    (free : server.rpcFuncMap.lookup name = none) :
    registerRpc server name func =
      .ok { server with rpcFuncMap := server.rpcFuncMap.insert name (some func) } := by
  unfold registerRpc
  rw [free]
  rfl

theorem registerRpc_taken {server : MessageQueueServer} {name : Str} {func : Handler}
    {function : Function} (taken : server.rpcFuncMap.lookup name = some function) :
    registerRpc server name func =
      throwing (.runtimeError (ascii "rpc function already exists")) := by
  unfold registerRpc
  rw [taken]
  rfl

/-- `unregister_rpc` -/
def unregisterRpc (server : MessageQueueServer) (name : Str) : MessageQueueServer :=
  if (server.rpcFuncMap.lookup name).isSome then
    { server with rpcFuncMap := server.rpcFuncMap.erase name }
  else
    server

@[simp]
theorem handlersAt_unregisterRpc (server : MessageQueueServer) (name eventType : Str) :
    handlersAt (unregisterRpc server name) eventType = handlersAt server eventType := by
  unfold unregisterRpc handlersAt
  split <;> rfl

@[simp]
theorem evtCbId_unregisterRpc (server : MessageQueueServer) (name : Str) :
    (unregisterRpc server name).evtCbId = server.evtCbId := by
  unfold unregisterRpc
  split <;> rfl

/-- `INT_MAX` -/
def intMax : Int := 2 ^ 31 - 1

/-- `register_event_handler`.  Past `INT_MAX` the id overflows. -/
def registerEventHandler (env : Env) (server : MessageQueueServer) (eventType : Str)
    (cb : Handler) : Cpp MessageQueueServer := do
  let handlerMap := handlersAt server eventType
  if server.evtCbId = intMax then .error .undefined
  let id := server.evtCbId + 1
  assertion env (handlerMap.lookup id).isNone
  return { server with
    evtCbId := id
    eventHandlerMap := server.eventHandlerMap.insert eventType (handlerMap.insert id (some cb)) }

/-- `register_event_handler` fails by overflow or by its assertion. -/
theorem registerEventHandler_eq_error {env : Env} {server : MessageQueueServer}
    {eventType : Str} {cb : Handler} {fault : Fault}
    (failed : registerEventHandler env server eventType cb = .error fault) :
    (fault = .undefined ∧ server.evtCbId = intMax) ∨
      (fault = .abort ∧
        ((handlersAt server eventType).lookup (server.evtCbId + 1)).isSome = true) := by
  unfold registerEventHandler assertion at failed
  by_cases overflow : server.evtCbId = intMax
  · simp [overflow] at failed
    exact Or.inl ⟨failed.symm, overflow⟩
  · by_cases holds : (((handlersAt server eventType).lookup (server.evtCbId + 1)).isNone ||
        env.ndebug) = true
    · simp [overflow, holds, pure, Except.pure] at failed
    · simp only [overflow, if_false, holds] at failed
      rw [Bool.not_eq_true, Bool.or_eq_false_iff, Option.isNone_eq_false_iff] at holds
      cases failed
      exact Or.inr ⟨rfl, holds.1⟩

theorem registerEventHandler_eq_ok {env : Env} {server after : MessageQueueServer}
    {eventType : Str} {cb : Handler}
    (registered : registerEventHandler env server eventType cb = .ok after) :
    server.evtCbId ≠ intMax ∧ after = { server with
      evtCbId := server.evtCbId + 1
      eventHandlerMap := server.eventHandlerMap.insert eventType
        ((handlersAt server eventType).insert (server.evtCbId + 1) (some cb)) } := by
  unfold registerEventHandler assertion at registered
  by_cases overflow : server.evtCbId = intMax
  · simp [overflow] at registered
  · by_cases holds : (((handlersAt server eventType).lookup (server.evtCbId + 1)).isNone ||
        env.ndebug) = true
    · simp [overflow, holds, pure, Except.pure] at registered
      exact ⟨overflow, registered.symm⟩
    · simp [overflow, holds] at registered

/-- The event type the loop of `unregister_event_handler` stops at, or the
empty string; `order` is the order in which the hash table is walked. -/
def eventTypeOf (server : MessageQueueServer) (order : List Str) (cbId : Int) : Str :=
  (order.find? fun eventType => ((handlersAt server eventType).lookup cbId).isSome).getD []

/-- `unregister_event_handler`.  Its last test looks for the event type itself, and
not for handlers of it. -/
def unregisterEventHandler (server : MessageQueueServer) (order : List Str) (cbId : Int) :
    MessageQueueServer :=
  let eventType := eventTypeOf server order cbId
  if eventType.isEmpty then
    server
  else
    let eventHandlerMap := server.eventHandlerMap.insert eventType
      ((handlersAt server eventType).erase cbId)
    if (eventHandlerMap.lookup eventType).isNone then
      { server with eventHandlerMap := eventHandlerMap.erase eventType }
    else
      { server with eventHandlerMap }

/-- The loop of `unregister_event_handler` stops at an event type that has the
id, or no event type has it. -/
theorem eventTypeOf_cases {server : MessageQueueServer} {order : List Str} (cbId : Int)
    (walk : order.Perm server.eventHandlerMap.keys) :
    (eventTypeOf server order cbId = [] ∧
        ∀ eventType, (handlersAt server eventType).lookup cbId = none) ∨
      ((handlersAt server (eventTypeOf server order cbId)).lookup cbId).isSome = true := by
  unfold eventTypeOf
  cases found : order.find? fun eventType =>
      ((handlersAt server eventType).lookup cbId).isSome with
  | none =>
      refine Or.inl ⟨rfl, fun eventType => ?_⟩
      by_contra present
      have entry : ((handlersAt server eventType).lookup cbId).isSome = true :=
        Option.isSome_iff_ne_none.mpr present
      have visited := walk.mem_iff.mpr (mem_keys_of_handlersAt entry)
      exact absurd entry (List.find?_eq_none.mp found eventType visited)
  | some eventType =>
      have entry : ((handlersAt server eventType).lookup cbId).isSome = true := by
        simpa using List.find?_some found
      exact Or.inr entry

theorem unregisterEventHandler_of_nil {server : MessageQueueServer} {order : List Str}
    {cbId : Int} (noType : eventTypeOf server order cbId = []) :
    unregisterEventHandler server order cbId = server := by
  unfold unregisterEventHandler
  rw [noType]
  rfl

/-- The event type stays in the table, whatever is left of its handlers. -/
theorem unregisterEventHandler_of_ne_nil {server : MessageQueueServer} {order : List Str}
    {cbId : Int} (someType : eventTypeOf server order cbId ≠ []) :
    unregisterEventHandler server order cbId =
      { server with
        eventHandlerMap := server.eventHandlerMap.insert (eventTypeOf server order cbId)
          ((handlersAt server (eventTypeOf server order cbId)).erase cbId) } := by
  have notEmpty : (eventTypeOf server order cbId).isEmpty = false := by
    simpa using someType
  unfold unregisterEventHandler
  simp only [notEmpty, Bool.false_eq_true, if_false, OrderedMap.lookup_insert_self,
    Option.isNone_some]

/-- The rest of an RPC worker after the lookup. -/
def afterLookup (message : Message) : Lookup → Task
  | .call meth args => .rpcCall message meth args
  | .reply res => .rpcReply message res

/-- One step of a worker: what is left of it, and what it published. -/
def workStep (env : Env) (server : MessageQueueServer) :
    Task → MessageQueueServer × Recorded (List Task × List Envelope)
  | .rpc message =>
      (server,
        { calls := []
          outcome := do return ([afterLookup message (← rpcFind env server message)], []) })
  | .rpcCall message meth args =>
      let (after, called) := rpcCall env server message meth args
      (after, called.andThen fun res => do return ([.rpcReply message (← res)], []))
  | .rpcReply _ res =>
      (server, { calls := [], outcome := do return ([], [← sendReply env res]) })
  | .event eventType cbId eventData =>
      let (after, called) := eventWorker env server eventType cbId eventData
      (after, called.andThen fun done => do let () ← done; return ([], []))

/-- A call made in a step of a worker. -/
structure WorkerCall where
  worker : Task
  invocation : Invocation

namespace Server

/-- The server with its pool, what it has published and the calls its workers
have made.  After a fault the process is gone. -/
structure State where
  server : MessageQueueServer := {}
  tasks : List Task := []
  published : List Envelope := []
  calls : List WorkerCall := []
  fault : Option Fault := none

inductive Action where
  | rpcMessage (message : Message)
  | eventMessage (body : Str)
  /-- The worker at this place in the pool goes on. -/
  | work (index : Nat)
  | registerRpc (name : Str) (func : Handler)
  | unregisterRpc (name : Str)
  | registerEventHandler (eventType : Str) (cb : Handler)
  /-- `order` is a permutation of the event types. -/
  | unregisterEventHandler (order : List Str) (cbId : Int)

/-- A registration call: an exception goes back to its caller and changes
nothing, any other fault ends the process. -/
def State.register (state : State) : Cpp MessageQueueServer → State
  | .ok server => { state with server }
  | .error (.thrown _) => state
  | .error fault => { state with fault := some fault }

def step (env : Env) (state : State) (action : Action) : Option State :=
  if state.fault.isSome then
    none
  else
    match action with
    | .rpcMessage message =>
        some { state with tasks := .rpc message :: state.tasks }
    | .eventMessage body =>
        match onEventMessage env state.server body with
        | .ok tasks => some { state with tasks := tasks ++ state.tasks }
        | .error fault => some { state with fault := some fault }
    | .work index =>
        match state.tasks[index]? with
        | none => none
        | some task =>
            let (server, worked) := workStep env state.server task
            let calls := state.calls ++ worked.calls.map (WorkerCall.mk task)
            match worked.outcome with
            | .ok (next, published) =>
                some { state with
                  server
                  tasks := next ++ state.tasks.eraseIdx index
                  published := state.published ++ published
                  calls }
            | .error fault =>
                some { state with
                  server
                  tasks := state.tasks.eraseIdx index
                  calls
                  fault := some fault }
    | .registerRpc name func => some (state.register (registerRpc state.server name func))
    | .unregisterRpc name => some { state with server := unregisterRpc state.server name }
    | .registerEventHandler eventType cb =>
        some (state.register (registerEventHandler env state.server eventType cb))
    | .unregisterEventHandler order cbId =>
        if order.Perm state.server.eventHandlerMap.keys then
          some { state with server := unregisterEventHandler state.server order cbId }
        else
          none

/-- Everything a step can do. -/
inductive Effect (env : Env) (state : State) : Action → State → Prop
  | rpcMessage (message : Message) :
      Effect env state (.rpcMessage message)
        { state with tasks := .rpc message :: state.tasks }
  | eventMessage {body : Str} {tasks : List Task} :
      onEventMessage env state.server body = .ok tasks →
        Effect env state (.eventMessage body) { state with tasks := tasks ++ state.tasks }
  | eventMessageFault {body : Str} {fault : Fault} :
      onEventMessage env state.server body = .error fault →
        Effect env state (.eventMessage body) { state with fault := some fault }
  | work {index : Nat} {task : Task} {server : MessageQueueServer} {calls : List Invocation}
      {next : List Task} {published : List Envelope} :
      state.tasks[index]? = some task →
        workStep env state.server task = (server, ⟨calls, .ok (next, published)⟩) →
          Effect env state (.work index)
            { state with
              server
              tasks := next ++ state.tasks.eraseIdx index
              published := state.published ++ published
              calls := state.calls ++ calls.map (WorkerCall.mk task) }
  | workFault {index : Nat} {task : Task} {server : MessageQueueServer}
      {calls : List Invocation} {fault : Fault} :
      state.tasks[index]? = some task →
        workStep env state.server task = (server, ⟨calls, .error fault⟩) →
          Effect env state (.work index)
            { state with
              server
              tasks := state.tasks.eraseIdx index
              calls := state.calls ++ calls.map (WorkerCall.mk task)
              fault := some fault }
  | registerRpc {name : Str} {func : Handler} :
      state.server.rpcFuncMap.lookup name = none →
        Effect env state (.registerRpc name func)
          { state with
            server.rpcFuncMap := state.server.rpcFuncMap.insert name (some func) }
  | registerRpcTaken {name : Str} {func : Handler} {function : Function} :
      state.server.rpcFuncMap.lookup name = some function →
        Effect env state (.registerRpc name func) state
  | unregisterRpc (name : Str) :
      Effect env state (.unregisterRpc name)
        { state with server := unregisterRpc state.server name }
  | registerEventHandler {eventType : Str} {cb : Handler} {server : MessageQueueServer} :
      registerEventHandler env state.server eventType cb = .ok server →
        Effect env state (.registerEventHandler eventType cb) { state with server }
  | registerEventHandlerFault {eventType : Str} {cb : Handler} {fault : Fault} :
      registerEventHandler env state.server eventType cb = .error fault →
        Effect env state (.registerEventHandler eventType cb)
          { state with fault := some fault }
  | unregisterEventHandler {order : List Str} {cbId : Int} :
      order.Perm state.server.eventHandlerMap.keys →
        Effect env state (.unregisterEventHandler order cbId)
          { state with server := unregisterEventHandler state.server order cbId }

theorem step_effect {env : Env} {state after : State} {action : Action}
    (stepped : step env state action = some after) :
    state.fault = none ∧ Effect env state action after := by
  unfold step at stepped
  by_cases dead : state.fault.isSome = true
  · rw [if_pos dead] at stepped
    cases stepped
  rw [if_neg dead] at stepped
  refine ⟨by simpa using dead, ?_⟩
  cases action with
  | rpcMessage message =>
      cases stepped
      exact Effect.rpcMessage message
  | eventMessage body =>
      cases received : onEventMessage env state.server body with
      | ok tasks =>
          simp only [received] at stepped
          cases stepped
          exact Effect.eventMessage received
      | error fault =>
          simp only [received] at stepped
          cases stepped
          exact Effect.eventMessageFault received
  | work index =>
      cases found : state.tasks[index]? with
      | none =>
          simp only [found] at stepped
          cases stepped
      | some task =>
          cases worked : workStep env state.server task with
          | mk server recorded =>
          obtain ⟨calls, outcome⟩ := recorded
          cases outcome with
          | ok left =>
              simp only [found, worked] at stepped
              cases stepped
              exact Effect.work found worked
          | error fault =>
              simp only [found, worked] at stepped
              cases stepped
              exact Effect.workFault found worked
  | registerRpc name func =>
      cases looked : state.server.rpcFuncMap.lookup name with
      | none =>
          simp only [registerRpc_free looked] at stepped
          cases stepped
          exact Effect.registerRpc looked
      | some function =>
          simp only [registerRpc_taken looked] at stepped
          cases stepped
          exact Effect.registerRpcTaken looked
  | unregisterRpc name =>
      cases stepped
      exact Effect.unregisterRpc name
  | registerEventHandler eventType cb =>
      cases registered : Ccmqsrv.registerEventHandler env state.server eventType cb with
      | ok server =>
          simp only [registered] at stepped
          cases stepped
          exact Effect.registerEventHandler registered
      | error fault =>
          simp only [registered] at stepped
          rcases registerEventHandler_eq_error registered with ⟨rfl, _⟩ | ⟨rfl, _⟩
          · cases stepped
            exact Effect.registerEventHandlerFault registered
          · cases stepped
            exact Effect.registerEventHandlerFault registered
  | unregisterEventHandler order cbId =>
      by_cases walk : order.Perm state.server.eventHandlerMap.keys
      · simp only [if_pos walk] at stepped
        cases stepped
        exact Effect.unregisterEventHandler walk
      · simp only [if_neg walk] at stepped
        cases stepped

/-- No call that was recorded is forgotten. -/
theorem calls_grows {env : Env} {state after : State} {action : Action}
    (stepped : step env state action = some after) : state.calls <+: after.calls := by
  cases (step_effect stepped).2 with
  | work found worked => exact List.prefix_append _ _
  | workFault found worked => exact List.prefix_append _ _
  | _ => exact List.prefix_refl _

/-- The server under every order of messages, workers and registrations. -/
def machine (env : Env) : Machine State Action where
  init := {}
  step := step env

end Server

end Ccmqsrv
