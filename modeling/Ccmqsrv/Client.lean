import Ccmqsrv.AsyncResult
import Ccmqsrv.Response
import Ccmqsrv.Server

/-!
# The message queue client

Any number of user threads call remote methods and publish events on one
client, while its event loop receives replies and bind confirmations.  The
threads share the table of pending requests, a channel for sending and three
mutexes.

A thread is cut before each mutex it acquires, where a wait releases one, and
around each operation on a shared map or on the channel.  The event loop takes
no mutex to read the table of pending requests.
-/

namespace Ccmqsrv

open Foundations

namespace Client

/-- The event loop of the client, or one of the threads that use it. -/
inductive Thread where
  | loop
  | user (index : Nat)
  deriving DecidableEq

/-- `rpc_exchange_`, `callback_queue_` and `event_exchange_`. -/
structure Config where
  rpcExchange : Str
  callbackQueue : Str
  eventExchange : Str

/-- What `on_response` reads of a message. -/
structure Response where
  correlationID : Str
  body : Str
  deriving DecidableEq

/-- A command given to `send_channel`. -/
inductive Command where
  | declareQueue (queue : Str)
  | bindQueue (exchange queue routingKey : Str)
  | publish (exchange routingKey : Str) (message : Message)
  deriving DecidableEq

/-- One invocation of `Caller::call`, and the id it was given. -/
structure Call where
  id : Str
  routingKey : Str
  meth : Str
  args : List Json

/-- Where a call stands: in `call_async` up to `await`, and in the locked
block of `Caller::call` up to `erase`. -/
inductive CallPoint where
  | register
  | registering
  | encode
  | send (body : Str)
  | sending (body : Str)
  | await
  | lookup
  | get (point : GetPoint)
  | erase (ret : Str × Str)
  | finish (ret : Str × Str)

/-- Where a call of `publish` stands. -/
inductive PublishPoint where
  | find
  | declare
  | bind
  | insert
  | lock
  | locked
  | wait
  | blocked
  | woken
  | send
  | sending
  deriving DecidableEq

/-- What a user thread is doing. -/
inductive Activity where
  | idle
  | call (call : Call) (point : CallPoint)
  | publish (routingKey data : Str) (point : PublishPoint)

/-- Where the event loop stands: in `on_response`, or in the callback of a
bind. -/
inductive LoopPoint where
  | idle
  | decode (response : Response)
  | lookup (id : Str) (result : Str × Str)
  | set (id : Str) (result : Str × Str) (point : SetPoint)
  | notify

/-- What has happened, for the statements about runs. -/
inductive Event where
  | refused (user : Nat) (fault : Fault)
  | sent (call : Call) (message : Message)
  | delivered (response : Response) (found : Bool)
  | stored (id : Str) (result : Str × Str)
  /-- `get` has returned or thrown. -/
  | left (id : Str)
  | ended (call : Call) (outcome : Cpp Json)

/-- A client whose event loop is running. -/
structure State where
  reqEvents : OrderedMap Str (Option (AsyncResult Thread)) := .empty
  reqEventsMtx : Mutex Thread := none
  sendMtx : Mutex Thread := none
  pubMtx : Mutex Thread := none
  pubCv : CondVar Thread := []
  pubQueueInited : Bool := false
  routingKeys : List Str := []
  /-- Bind commands that were not confirmed yet. -/
  pendingBinds : Nat := 0
  users : Nat → Activity := fun _ => .idle
  loop : LoopPoint := .idle
  /-- The request ids generated so far. -/
  ids : List Str := []
  commands : List Command := []
  history : List Event := []
  fault : Option Fault := none

inductive Action where
  | call (user : Nat) (routingKey meth : Str) (args : List Json) (uuid : Str)
  | publish (user : Nat) (routingKey evtType : Str) (eventData : Json)
  | advance (thread : Thread)
  /-- A wait of `get` is over, whether or not it was notified. -/
  | wake (user : Nat) (status : CvStatus)
  | wakePublisher (user : Nat)
  | deliver (response : Response)
  | store (notified : Option Thread)
  | bindSuccess

namespace State

/-- The object behind `req_events[id]`, if there is an entry and it is not null. -/
def object (state : State) (id : Str) : Option (AsyncResult Thread) :=
  (state.reqEvents.lookup id).join

/-- `operator[]`: a missing entry is created as a null pointer. -/
def subscript (state : State) (id : Str) : State :=
  if (state.reqEvents.lookup id).isSome then state
  else { state with reqEvents := state.reqEvents.insert id none }

def setObject (state : State) (id : Str) (object : AsyncResult Thread) : State :=
  { state with reqEvents := state.reqEvents.insert id (some object) }

def put (state : State) (user : Nat) (activity : Activity) : State :=
  { state with users := Function.update state.users user activity }

def record (state : State) (events : List Event) : State :=
  { state with history := state.history ++ events }

/-- A null pointer or a destroyed object was used. -/
def undefined (state : State) : State :=
  { state with fault := some .undefined }

end State

/-- `"corr-" + uuid_str` -/
def requestId (uuid : Str) : Str :=
  ascii "corr-" ++ uuid

/-- A get that has returned or thrown leaves the wait for the reply. -/
def leaving (id : Str) : GetPoint → List Event
  | .returned => [.left id]
  | .threw => [.left id]
  | _ => []

/-- The message of `call_async`. -/
def requestMessage (config : Config) (call : Call) (body : Str) : Message :=
  { body, correlationID := call.id, replyTo := config.callbackQueue }

/-- `Caller::call` goes on.  An exception leaves the entry in the table. -/
def callStep (env : Env) (config : Config) (state : State) (user : Nat) (call : Call) :
    CallPoint → Option State
  | .register => do
      let reqEventsMtx ← state.reqEventsMtx.lock (.user user)
      return { state.put user (.call call .registering) with reqEventsMtx }
  | .registering =>
      some { (state.setObject call.id {}).put user (.call call .encode) with
        reqEventsMtx := none }
  | .encode =>
      match rpcEncodeReq env call.id call.meth call.args with
      | .ok body => some (state.put user (.call call (.send body)))
      | .error fault => some ((state.put user .idle).record [.ended call (.error fault)])
  | .send body => do
      let sendMtx ← state.sendMtx.lock (.user user)
      return { state.put user (.call call (.sending body)) with sendMtx }
  | .sending body =>
      let message := requestMessage config call body
      some { (state.put user (.call call .await)).record [.sent call message] with
        sendMtx := none
        commands := state.commands ++
          [.publish config.rpcExchange call.routingKey message] }
  | .await => do
      let reqEventsMtx ← state.reqEventsMtx.lock (.user user)
      return { state.put user (.call call .lookup) with reqEventsMtx }
  | .lookup =>
      match state.object call.id with
      | some _ => some (state.put user (.call call (.get .enter)))
      | none => some (state.subscript call.id).undefined
  | .get .threw =>
      some { (state.put user .idle).record
          [.ended call (throwing (.runtimeError (ascii "call function timeout.")))] with
        reqEventsMtx := none }
  | .get .returned =>
      match state.object call.id with
      | some object =>
          let (ret, object) := object.moveResult
          some ((state.setObject call.id object).put user (.call call (.erase ret)))
      | none => some state.undefined
  | .get point =>
      match state.object call.id with
      | some object => do
          let (object, next) ← object.getStep (.user user) point
          return ((state.setObject call.id object).put user (.call call (.get next))).record
            (leaving call.id next)
      | none => some state.undefined
  | .erase ret =>
      some { state.put user (.call call (.finish ret)) with
        reqEvents := state.reqEvents.erase call.id
        reqEventsMtx := none }
  | .finish ret =>
      some ((state.put user .idle).record [.ended call (finishCall env ret)])

/-- The command that publishes the event. -/
def eventCommand (config : Config) (routingKey data : Str) : Command :=
  .publish config.eventExchange routingKey { body := data, correlationID := [], replyTo := [] }

/-- `publish` goes on.  The callback of a bind does not take `pub_mtx`, so it can
come between the test of `pub_queue_inited` and the wait; after the wait the flag
is not tested again. -/
def publishStep (config : Config) (state : State) (user : Nat) (routingKey data : Str) :
    PublishPoint → Option State
  | .find =>
      if routingKey ∈ state.routingKeys then
        some (state.put user (.publish routingKey data .lock))
      else
        some (state.put user (.publish routingKey data .declare))
  | .declare =>
      some { state.put user (.publish routingKey data .bind) with
        commands := state.commands ++ [.declareQueue routingKey] }
  | .bind =>
      some { state.put user (.publish routingKey data .insert) with
        pendingBinds := state.pendingBinds + 1
        commands := state.commands ++
          [.bindQueue config.eventExchange routingKey routingKey] }
  | .insert =>
      some { state.put user (.publish routingKey data .lock) with
        routingKeys := state.routingKeys.insert routingKey }
  | .lock => do
      let pubMtx ← state.pubMtx.lock (.user user)
      return { state.put user (.publish routingKey data .locked) with pubMtx }
  | .locked =>
      if state.pubQueueInited then
        some (state.put user (.publish routingKey data .send))
      else
        some (state.put user (.publish routingKey data .wait))
  | .wait =>
      some { state.put user (.publish routingKey data .blocked) with
        pubMtx := none
        pubCv := .user user :: state.pubCv }
  | .woken => do
      let pubMtx ← state.pubMtx.lock (.user user)
      return { state.put user (.publish routingKey data .send) with pubMtx }
  | .send => do
      let sendMtx ← state.sendMtx.lock (.user user)
      return { state.put user (.publish routingKey data .sending) with sendMtx }
  | .sending =>
      some { state.put user .idle with
        sendMtx := none
        pubMtx := none
        commands := state.commands ++ [eventCommand config routingKey data] }
  | .blocked => none

/-- The event loop goes on. -/
def loopStep (env : Env) (state : State) : LoopPoint → Option State
  | .decode response =>
      match decodeResponse env response.body with
      | .ok result => some { state with loop := .lookup response.correlationID result }
      | .error fault => some { state with fault := some fault }
  | .lookup id result =>
      match state.object id with
      | some _ => some { state with loop := .set id result .enter }
      | none => some (state.subscript id).undefined
  | .set id result .enter =>
      match state.object id with
      | some object => do
          let object ← object.setLock .loop
          return { state.setObject id object with loop := .set id result .locked }
      | none => some state.undefined
  | .notify => some { state with pubCv := [], loop := .idle }
  | .set _ _ .locked => none
  | .idle => none

/-- A generated id is never generated again. -/
def step (env : Env) (config : Config) (state : State) (action : Action) : Option State :=
  if state.fault.isSome then
    none
  else
    match action with
    | .call user routingKey meth args uuid =>
        match state.users user with
        | .idle =>
            if meth.isEmpty then
              let fault := .thrown (.runtimeError (ascii "method name is empty"))
              some (state.record [.refused user fault])
            else if requestId uuid ∈ state.ids then
              none
            else
              let call : Call := { id := requestId uuid, routingKey, meth, args }
              some { state.put user (.call call .register) with ids := call.id :: state.ids }
        | _ => none
    | .publish user routingKey evtType eventData =>
        match state.users user with
        | .idle =>
            match jsonDump env (.array [.string evtType, eventData]) with
            | .ok data => some (state.put user (.publish routingKey data .find))
            | .error fault => some (state.record [.refused user fault])
        | _ => none
    | .advance (.user user) =>
        match state.users user with
        | .call call point => callStep env config state user call point
        | .publish routingKey data point => publishStep config state user routingKey data point
        | .idle => none
    | .advance .loop => loopStep env state state.loop
    | .wake user status =>
        match state.users user with
        | .call call (.get .blocked) =>
            match state.object call.id with
            | some object => some
                ((state.setObject call.id (object.wake (.user user))).put user
                  (.call call (.get (.woken status))))
            | none => some state.undefined
        | _ => none
    | .wakePublisher user =>
        match state.users user with
        | .publish routingKey data .blocked => some
            { state.put user (.publish routingKey data .woken) with
              pubCv := state.pubCv.leave (.user user) }
        | _ => none
    | .deliver response =>
        match state.loop with
        | .idle =>
            if (state.reqEvents.lookup response.correlationID).isSome then
              some { state.record [.delivered response true] with loop := .decode response }
            else
              some (state.record [.delivered response false])
        | _ => none
    | .store notified =>
        match state.loop with
        | .set id result .locked =>
            match state.object id with
            | some object => do
                let object ← object.setResult result notified
                return { (state.setObject id object).record [.stored id result] with
                  loop := .idle }
            | none => some state.undefined
        | _ => none
    | .bindSuccess =>
        match state.loop with
        | .idle =>
            if state.pendingBinds = 0 then
              none
            else
              some { state with
                pubQueueInited := true
                pendingBinds := state.pendingBinds - 1
                loop := .notify }
        | _ => none

/-- The client under every interleaving of its threads, every sequence of
messages delivered to it, and all wake-ups. -/
def machine (env : Env) (config : Config) : Machine State Action where
  init := {}
  step := step env config

section Fields

variable (state : State) (user : Nat) (activity : Activity) (events : List Event) (id : Str)
  (object : AsyncResult Thread)

@[simp]
theorem State.put_self : (state.put user activity).users user = activity :=
  Function.update_self ..

theorem State.put_of_ne {other : Nat} (different : other ≠ user) :
    (state.put user activity).users other = state.users other :=
  Function.update_of_ne different ..

@[simp]
theorem State.object_put : (state.put user activity).object id = state.object id :=
  rfl

@[simp]
theorem State.object_record : (state.record events).object id = state.object id :=
  rfl

@[simp]
theorem State.object_setObject_self : (state.setObject id object).object id = some object := by
  unfold State.object State.setObject
  rw [OrderedMap.lookup_insert_self]
  rfl

theorem State.object_setObject_of_ne {other : Str} (different : other ≠ id) :
    (state.setObject id object).object other = state.object other := by
  unfold State.object State.setObject
  rw [OrderedMap.lookup_insert_of_ne _ _ different]

/-- An inserting lookup changes the table and nothing else. -/
theorem State.subscript_eq : ∃ reqEvents, state.subscript id = { state with reqEvents } := by
  unfold State.subscript
  split
  · exact ⟨state.reqEvents, rfl⟩
  · exact ⟨_, rfl⟩

theorem State.object_subscript (other : Str) :
    (state.subscript id).object other = state.object other := by
  unfold State.subscript
  split
  · rfl
  · rename_i missing
    unfold State.object
    by_cases same : other = id
    · subst same
      have absent : state.reqEvents.lookup other = none := by
        simpa using missing
      rw [OrderedMap.lookup_insert_self, absent]
      rfl
    · rw [OrderedMap.lookup_insert_of_ne _ _ same]

end Fields

/-- Everything a step of `Caller::call` can do. -/
inductive CallEffect (env : Env) (config : Config) (state : State) (user : Nat) (call : Call) :
    CallPoint → State → Prop
  | lockRegister : state.reqEventsMtx = none →
      CallEffect env config state user call .register
        { state.put user (.call call .registering) with reqEventsMtx := some (.user user) }
  | register :
      CallEffect env config state user call .registering
        { (state.setObject call.id {}).put user (.call call .encode) with reqEventsMtx := none }
  | encode {body : Str} : rpcEncodeReq env call.id call.meth call.args = .ok body →
      CallEffect env config state user call .encode (state.put user (.call call (.send body)))
  | encodeFault {fault : Fault} :
      rpcEncodeReq env call.id call.meth call.args = .error fault →
        CallEffect env config state user call .encode
          ((state.put user .idle).record [.ended call (.error fault)])
  | lockSend {body : Str} : state.sendMtx = none →
      CallEffect env config state user call (.send body)
        { state.put user (.call call (.sending body)) with sendMtx := some (.user user) }
  | send {body : Str} :
      CallEffect env config state user call (.sending body)
        { (state.put user (.call call .await)).record
            [.sent call (requestMessage config call body)] with
          sendMtx := none
          commands := state.commands ++
            [.publish config.rpcExchange call.routingKey (requestMessage config call body)] }
  | lockAwait : state.reqEventsMtx = none →
      CallEffect env config state user call .await
        { state.put user (.call call .lookup) with reqEventsMtx := some (.user user) }
  | lookup {object : AsyncResult Thread} : state.object call.id = some object →
      CallEffect env config state user call .lookup (state.put user (.call call (.get .enter)))
  | lookupNull : state.object call.id = none →
      CallEffect env config state user call .lookup (state.subscript call.id).undefined
  | get {object after : AsyncResult Thread} {point next : GetPoint} :
      state.object call.id = some object →
        AsyncResult.GetEffect object (.user user) point after next →
          CallEffect env config state user call (.get point)
            (((state.setObject call.id after).put user (.call call (.get next))).record
              (leaving call.id next))
  | move {object : AsyncResult Thread} : state.object call.id = some object →
      CallEffect env config state user call (.get .returned)
        ((state.setObject call.id { object with result := ([], []) }).put user
          (.call call (.erase object.result)))
  | getDestroyed {point : GetPoint} : point ≠ .threw → state.object call.id = none →
      CallEffect env config state user call (.get point) state.undefined
  | throw :
      CallEffect env config state user call (.get .threw)
        { (state.put user .idle).record
            [.ended call (throwing (.runtimeError (ascii "call function timeout.")))] with
          reqEventsMtx := none }
  | erase {ret : Str × Str} :
      CallEffect env config state user call (.erase ret)
        { state.put user (.call call (.finish ret)) with
          reqEvents := state.reqEvents.erase call.id
          reqEventsMtx := none }
  | finish {ret : Str × Str} :
      CallEffect env config state user call (.finish ret)
        ((state.put user .idle).record [.ended call (finishCall env ret)])

/-- Everything a step of `publish` can do. -/
inductive PublishEffect (config : Config) (state : State) (user : Nat) (routingKey data : Str) :
    PublishPoint → State → Prop
  | known : routingKey ∈ state.routingKeys →
      PublishEffect config state user routingKey data .find
        (state.put user (.publish routingKey data .lock))
  | unknown : routingKey ∉ state.routingKeys →
      PublishEffect config state user routingKey data .find
        (state.put user (.publish routingKey data .declare))
  | declare :
      PublishEffect config state user routingKey data .declare
        { state.put user (.publish routingKey data .bind) with
          commands := state.commands ++ [.declareQueue routingKey] }
  | bind :
      PublishEffect config state user routingKey data .bind
        { state.put user (.publish routingKey data .insert) with
          pendingBinds := state.pendingBinds + 1
          commands := state.commands ++
            [.bindQueue config.eventExchange routingKey routingKey] }
  | insert :
      PublishEffect config state user routingKey data .insert
        { state.put user (.publish routingKey data .lock) with
          routingKeys := state.routingKeys.insert routingKey }
  | lock : state.pubMtx = none →
      PublishEffect config state user routingKey data .lock
        { state.put user (.publish routingKey data .locked) with pubMtx := some (.user user) }
  | ready : state.pubQueueInited = true →
      PublishEffect config state user routingKey data .locked
        (state.put user (.publish routingKey data .send))
  | notReady : state.pubQueueInited = false →
      PublishEffect config state user routingKey data .locked
        (state.put user (.publish routingKey data .wait))
  | wait :
      PublishEffect config state user routingKey data .wait
        { state.put user (.publish routingKey data .blocked) with
          pubMtx := none
          pubCv := .user user :: state.pubCv }
  | relock : state.pubMtx = none →
      PublishEffect config state user routingKey data .woken
        { state.put user (.publish routingKey data .send) with pubMtx := some (.user user) }
  | lockSend : state.sendMtx = none →
      PublishEffect config state user routingKey data .send
        { state.put user (.publish routingKey data .sending) with sendMtx := some (.user user) }
  | send :
      PublishEffect config state user routingKey data .sending
        { state.put user .idle with
          sendMtx := none
          pubMtx := none
          commands := state.commands ++ [eventCommand config routingKey data] }

/-- Everything the event loop can do by itself. -/
inductive LoopEffect (env : Env) (state : State) : LoopPoint → State → Prop
  | decode {response : Response} {result : Str × Str} :
      decodeResponse env response.body = .ok result →
        LoopEffect env state (.decode response)
          { state with loop := .lookup response.correlationID result }
  | decodeFault {response : Response} {fault : Fault} :
      decodeResponse env response.body = .error fault →
        LoopEffect env state (.decode response) { state with fault := some fault }
  | lookup {id : Str} {result : Str × Str} {object : AsyncResult Thread} :
      state.object id = some object →
        LoopEffect env state (.lookup id result) { state with loop := .set id result .enter }
  | lookupNull {id : Str} {result : Str × Str} : state.object id = none →
      LoopEffect env state (.lookup id result) (state.subscript id).undefined
  | lock {id : Str} {result : Str × Str} {object : AsyncResult Thread} :
      state.object id = some object → object.mutex = none →
        LoopEffect env state (.set id result .enter)
          { state.setObject id { object with mutex := some .loop } with
            loop := .set id result .locked }
  | setDestroyed {id : Str} {result : Str × Str} : state.object id = none →
      LoopEffect env state (.set id result .enter) state.undefined
  | notify :
      LoopEffect env state .notify { state with pubCv := [], loop := .idle }

/-- Everything a step can do. -/
inductive Effect (env : Env) (config : Config) (state : State) : Action → State → Prop
  | call {user : Nat} {routingKey meth : Str} {args : List Json} {uuid : Str} {call : Call} :
      call = { id := requestId uuid, routingKey, meth, args } →
        state.users user = .idle → call.id ∉ state.ids →
          Effect env config state (.call user routingKey meth args uuid)
            { state.put user (.call call .register) with ids := call.id :: state.ids }
  | callRefused {user : Nat} {routingKey meth : Str} {args : List Json} {uuid : Str}
      {fault : Fault} :
      Effect env config state (.call user routingKey meth args uuid)
        (state.record [.refused user fault])
  | publish {user : Nat} {routingKey evtType data : Str} {eventData : Json} :
      state.users user = .idle →
        Effect env config state (.publish user routingKey evtType eventData)
          (state.put user (.publish routingKey data .find))
  | publishRefused {user : Nat} {routingKey evtType : Str} {eventData : Json} {fault : Fault} :
      Effect env config state (.publish user routingKey evtType eventData)
        (state.record [.refused user fault])
  | callStep {user : Nat} {call : Call} {point : CallPoint} {after : State} :
      state.users user = .call call point →
        CallEffect env config state user call point after →
          Effect env config state (.advance (.user user)) after
  | publishStep {user : Nat} {routingKey data : Str} {point : PublishPoint} {after : State} :
      state.users user = .publish routingKey data point →
        PublishEffect config state user routingKey data point after →
          Effect env config state (.advance (.user user)) after
  | loopStep {after : State} : LoopEffect env state state.loop after →
      Effect env config state (.advance .loop) after
  | wake {user : Nat} {status : CvStatus} {call : Call} {object : AsyncResult Thread} :
      state.users user = .call call (.get .blocked) → state.object call.id = some object →
        Effect env config state (.wake user status)
          ((state.setObject call.id (object.wake (.user user))).put user
            (.call call (.get (.woken status))))
  | wakeDestroyed {user : Nat} {status : CvStatus} {call : Call} :
      state.users user = .call call (.get .blocked) → state.object call.id = none →
        Effect env config state (.wake user status) state.undefined
  | wakePublisher {user : Nat} {routingKey data : Str} :
      state.users user = .publish routingKey data .blocked →
        Effect env config state (.wakePublisher user)
          { state.put user (.publish routingKey data .woken) with
            pubCv := state.pubCv.leave (.user user) }
  | deliver {response : Response} : state.loop = .idle →
      (state.reqEvents.lookup response.correlationID).isSome = true →
        Effect env config state (.deliver response)
          { state.record [.delivered response true] with loop := .decode response }
  | deliverUnknown {response : Response} : state.loop = .idle →
      state.reqEvents.lookup response.correlationID = none →
        Effect env config state (.deliver response) (state.record [.delivered response false])
  | store {notified : Option Thread} {id : Str} {result : Str × Str}
      {object : AsyncResult Thread} {condVar : CondVar Thread} :
      state.loop = .set id result .locked → state.object id = some object →
        object.condVar.notifyOne notified = some condVar →
          Effect env config state (.store notified)
            { (state.setObject id { mutex := none, condVar, done := true, result }).record
                [.stored id result] with loop := .idle }
  | storeDestroyed {notified : Option Thread} {id : Str} {result : Str × Str} :
      state.loop = .set id result .locked → state.object id = none →
        Effect env config state (.store notified) state.undefined
  | bindSuccess : state.loop = .idle → state.pendingBinds ≠ 0 →
      Effect env config state .bindSuccess
        { state with
          pubQueueInited := true
          pendingBinds := state.pendingBinds - 1
          loop := .notify }

variable {env : Env} {config : Config} {state after : State} {user : Nat} {call : Call}

private theorem get_effect {point : GetPoint} (notReturned : point ≠ .returned)
    (notThrew : point ≠ .threw)
    (stepped : callStep env config state user call (.get point) = some after) :
    CallEffect env config state user call (.get point) after := by
  have unfolded : (match state.object call.id with
      | some object => do
          let (object, next) ← object.getStep (.user user) point
          return ((state.setObject call.id object).put user (.call call (.get next))).record
            (leaving call.id next)
      | none => some state.undefined) = some after := by
    cases point with
    | returned => exact absurd rfl notReturned
    | threw => exact absurd rfl notThrew
    | _ => exact stepped
  cases found : state.object call.id with
  | none =>
      rw [found] at unfolded
      cases unfolded
      exact CallEffect.getDestroyed notThrew found
  | some object =>
      rw [found] at unfolded
      obtain ⟨⟨moved, next⟩, advanced, same⟩ := Option.bind_eq_some_iff.mp unfolded
      cases same
      exact CallEffect.get found (AsyncResult.getStep_eq_some.mp advanced)

theorem callStep_effect {point : CallPoint}
    (stepped : callStep env config state user call point = some after) :
    CallEffect env config state user call point after := by
  cases point with
  | register =>
      obtain ⟨mutex, locked, same⟩ := Option.bind_eq_some_iff.mp stepped
      obtain ⟨free, rfl⟩ := Mutex.lock_eq_some.mp locked
      cases same
      exact CallEffect.lockRegister free
  | registering =>
      cases stepped
      exact CallEffect.register
  | encode =>
      cases encoded : rpcEncodeReq env call.id call.meth call.args with
      | ok body =>
          simp only [callStep, encoded] at stepped
          cases stepped
          exact CallEffect.encode encoded
      | error fault =>
          simp only [callStep, encoded] at stepped
          cases stepped
          exact CallEffect.encodeFault encoded
  | send body =>
      obtain ⟨mutex, locked, same⟩ := Option.bind_eq_some_iff.mp stepped
      obtain ⟨free, rfl⟩ := Mutex.lock_eq_some.mp locked
      cases same
      exact CallEffect.lockSend free
  | sending body =>
      cases stepped
      exact CallEffect.send
  | await =>
      obtain ⟨mutex, locked, same⟩ := Option.bind_eq_some_iff.mp stepped
      obtain ⟨free, rfl⟩ := Mutex.lock_eq_some.mp locked
      cases same
      exact CallEffect.lockAwait free
  | lookup =>
      cases found : state.object call.id with
      | none =>
          simp only [callStep, found] at stepped
          cases stepped
          exact CallEffect.lookupNull found
      | some object =>
          simp only [callStep, found] at stepped
          cases stepped
          exact CallEffect.lookup found
  | get point =>
      by_cases returned : point = .returned
      · subst returned
        cases found : state.object call.id with
        | none =>
            simp only [callStep, found] at stepped
            cases stepped
            exact CallEffect.getDestroyed (by simp) found
        | some object =>
            simp only [callStep, found] at stepped
            cases stepped
            exact CallEffect.move found
      · by_cases threw : point = .threw
        · subst threw
          cases stepped
          exact CallEffect.throw
        · exact get_effect returned threw stepped
  | erase ret =>
      cases stepped
      exact CallEffect.erase
  | finish ret =>
      cases stepped
      exact CallEffect.finish

/-- The steps of `Caller::call` are exactly these. -/
theorem callStep_eq_some {point : CallPoint} :
    callStep env config state user call point = some after ↔
      CallEffect env config state user call point after := by
  constructor
  · exact callStep_effect
  · intro effect
    cases effect with
    | lockRegister free =>
        exact Option.bind_eq_some_iff.mpr ⟨_, Mutex.lock_eq_some.mpr ⟨free, rfl⟩, rfl⟩
    | encode encoded => simp only [callStep, encoded]
    | encodeFault failed => simp only [callStep, failed]
    | lockSend free =>
        exact Option.bind_eq_some_iff.mpr ⟨_, Mutex.lock_eq_some.mpr ⟨free, rfl⟩, rfl⟩
    | lockAwait free =>
        exact Option.bind_eq_some_iff.mpr ⟨_, Mutex.lock_eq_some.mpr ⟨free, rfl⟩, rfl⟩
    | lookup found => simp only [callStep, found]
    | lookupNull missing => simp only [callStep, missing]
    | get found advanced =>
        have stepped := AsyncResult.getStep_eq_some.mpr advanced
        cases advanced <;> simp only [callStep, found, stepped] <;> rfl
    | move found =>
        simp only [callStep, found]
        rfl
    | @getDestroyed point notThrew missing =>
        cases point with
        | threw => exact absurd rfl notThrew
        | _ => simp only [callStep, missing]
    | register => rfl
    | send => rfl
    | throw => rfl
    | erase => rfl
    | finish => rfl

theorem publishStep_effect {routingKey data : Str} {point : PublishPoint}
    (stepped : publishStep config state user routingKey data point = some after) :
    PublishEffect config state user routingKey data point after := by
  cases point with
  | find =>
      by_cases known : routingKey ∈ state.routingKeys
      · rw [publishStep, if_pos known] at stepped
        cases stepped
        exact PublishEffect.known known
      · rw [publishStep, if_neg known] at stepped
        cases stepped
        exact PublishEffect.unknown known
  | declare =>
      cases stepped
      exact PublishEffect.declare
  | bind =>
      cases stepped
      exact PublishEffect.bind
  | insert =>
      cases stepped
      exact PublishEffect.insert
  | lock =>
      obtain ⟨mutex, locked, same⟩ := Option.bind_eq_some_iff.mp stepped
      obtain ⟨free, rfl⟩ := Mutex.lock_eq_some.mp locked
      cases same
      exact PublishEffect.lock free
  | locked =>
      by_cases inited : state.pubQueueInited = true
      · rw [publishStep, if_pos inited] at stepped
        cases stepped
        exact PublishEffect.ready inited
      · rw [publishStep, if_neg inited] at stepped
        cases stepped
        exact PublishEffect.notReady (Bool.not_eq_true _ ▸ inited)
  | wait =>
      cases stepped
      exact PublishEffect.wait
  | blocked => cases stepped
  | woken =>
      obtain ⟨mutex, locked, same⟩ := Option.bind_eq_some_iff.mp stepped
      obtain ⟨free, rfl⟩ := Mutex.lock_eq_some.mp locked
      cases same
      exact PublishEffect.relock free
  | send =>
      obtain ⟨mutex, locked, same⟩ := Option.bind_eq_some_iff.mp stepped
      obtain ⟨free, rfl⟩ := Mutex.lock_eq_some.mp locked
      cases same
      exact PublishEffect.lockSend free
  | sending =>
      cases stepped
      exact PublishEffect.send

theorem loopStep_effect {point : LoopPoint} (stepped : loopStep env state point = some after) :
    LoopEffect env state point after := by
  cases point with
  | idle => cases stepped
  | decode response =>
      cases decoded : decodeResponse env response.body with
      | ok result =>
          simp only [loopStep, decoded] at stepped
          cases stepped
          exact LoopEffect.decode decoded
      | error fault =>
          simp only [loopStep, decoded] at stepped
          cases stepped
          exact LoopEffect.decodeFault decoded
  | lookup id result =>
      cases found : state.object id with
      | none =>
          simp only [loopStep, found] at stepped
          cases stepped
          exact LoopEffect.lookupNull found
      | some object =>
          simp only [loopStep, found] at stepped
          cases stepped
          exact LoopEffect.lookup found
  | set id result point =>
      cases point with
      | locked => cases stepped
      | enter =>
          cases found : state.object id with
          | none =>
              simp only [loopStep, found] at stepped
              cases stepped
              exact LoopEffect.setDestroyed found
          | some object =>
              simp only [loopStep, found] at stepped
              obtain ⟨owned, advanced, same⟩ := Option.bind_eq_some_iff.mp stepped
              obtain ⟨mutex, locked, sameObject⟩ := Option.bind_eq_some_iff.mp advanced
              obtain ⟨free, rfl⟩ := Mutex.lock_eq_some.mp locked
              cases sameObject
              cases same
              exact LoopEffect.lock found free
  | notify =>
      cases stepped
      exact LoopEffect.notify

/-- A publish begins with the text of its event, or is refused. -/
theorem step_publish_cases {user : Nat} {routingKey evtType : Str} {eventData : Json}
    (stepped : step env config state (.publish user routingKey evtType eventData) = some after) :
    state.users user = .idle ∧
      ((∃ data, jsonDump env (.array [.string evtType, eventData]) = .ok data ∧
          after = state.put user (.publish routingKey data .find)) ∨
        ∃ fault, after = state.record [.refused user fault]) := by
  unfold step at stepped
  by_cases dead : state.fault.isSome = true
  · rw [if_pos dead] at stepped
    cases stepped
  rw [if_neg dead] at stepped
  cases activity : state.users user with
  | idle =>
      simp only [activity] at stepped
      cases dumped : jsonDump env (.array [.string evtType, eventData]) with
      | ok data =>
          simp only [dumped] at stepped
          cases stepped
          exact ⟨rfl, Or.inl ⟨data, rfl, rfl⟩⟩
      | error fault =>
          simp only [dumped] at stepped
          cases stepped
          exact ⟨rfl, Or.inr ⟨fault, rfl⟩⟩
  | _ => simp [activity] at stepped

theorem step_effect {action : Action}
    (stepped : step env config state action = some after) :
    state.fault = none ∧ Effect env config state action after := by
  have taken := stepped
  unfold step at stepped
  by_cases dead : state.fault.isSome = true
  · rw [if_pos dead] at stepped
    cases stepped
  rw [if_neg dead] at stepped
  refine ⟨by simpa using dead, ?_⟩
  cases action with
  | call user routingKey meth args uuid =>
      cases activity : state.users user with
      | idle =>
          simp only [activity] at stepped
          by_cases noMethod : meth.isEmpty = true
          · rw [if_pos noMethod] at stepped
            cases stepped
            exact Effect.callRefused
          · rw [if_neg noMethod] at stepped
            by_cases used : requestId uuid ∈ state.ids
            · rw [if_pos used] at stepped
              cases stepped
            · rw [if_neg used] at stepped
              cases stepped
              exact Effect.call rfl activity used
      | _ => simp [activity] at stepped
  | publish user routingKey evtType eventData =>
      obtain ⟨idle, ⟨data, _, rfl⟩ | ⟨fault, rfl⟩⟩ := step_publish_cases taken
      · exact Effect.publish idle
      · exact Effect.publishRefused
  | advance thread =>
      cases thread with
      | loop => exact Effect.loopStep (loopStep_effect stepped)
      | user user =>
          cases activity : state.users user with
          | idle => simp [activity] at stepped
          | call call point =>
              simp only [activity] at stepped
              exact Effect.callStep activity (callStep_effect stepped)
          | publish routingKey data point =>
              simp only [activity] at stepped
              exact Effect.publishStep activity (publishStep_effect stepped)
  | wake user status =>
      cases activity : state.users user with
      | call call point =>
          cases point with
          | get point =>
              cases point with
              | blocked =>
                  cases found : state.object call.id with
                  | none =>
                      simp only [activity, found] at stepped
                      cases stepped
                      exact Effect.wakeDestroyed activity found
                  | some object =>
                      simp only [activity, found] at stepped
                      cases stepped
                      exact Effect.wake activity found
              | _ => simp [activity] at stepped
          | _ => simp [activity] at stepped
      | _ => simp [activity] at stepped
  | wakePublisher user =>
      cases activity : state.users user with
      | publish routingKey data point =>
          cases point with
          | blocked =>
              simp only [activity] at stepped
              cases stepped
              exact Effect.wakePublisher activity
          | _ => simp [activity] at stepped
      | _ => simp [activity] at stepped
  | deliver response =>
      cases at_point : state.loop with
      | idle =>
          simp only [at_point] at stepped
          by_cases found : (state.reqEvents.lookup response.correlationID).isSome = true
          · rw [if_pos found] at stepped
            cases stepped
            exact Effect.deliver at_point found
          · rw [if_neg found] at stepped
            cases stepped
            exact Effect.deliverUnknown at_point (by simpa using found)
      | _ => simp [at_point] at stepped
  | store notified =>
      cases at_point : state.loop with
      | set id result point =>
          cases point with
          | enter => simp [at_point] at stepped
          | locked =>
              cases found : state.object id with
              | none =>
                  simp only [at_point, found] at stepped
                  cases stepped
                  exact Effect.storeDestroyed at_point found
              | some object =>
                  simp only [at_point, found] at stepped
                  obtain ⟨owned, stored, same⟩ := Option.bind_eq_some_iff.mp stepped
                  obtain ⟨condVar, chosen, sameObject⟩ := Option.bind_eq_some_iff.mp stored
                  cases sameObject
                  cases same
                  exact Effect.store at_point found chosen
      | _ => simp [at_point] at stepped
  | bindSuccess =>
      cases at_point : state.loop with
      | idle =>
          simp only [at_point] at stepped
          by_cases none : state.pendingBinds = 0
          · rw [if_pos none] at stepped
            cases stepped
          · rw [if_neg none] at stepped
            cases stepped
            exact Effect.bindSuccess at_point none
      | _ => simp [at_point] at stepped

end Client

end Ccmqsrv
