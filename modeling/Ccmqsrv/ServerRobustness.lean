import Ccmqsrv.RequestHandling
import Ccmqsrv.Foundations.JsonCodec

/-!
# What a message can do to the server

A message on the RPC queue or on the event queue is processed with the tables
left alone by others.  The process survives it, with its tables unchanged,
exactly for the messages described by `Acceptable`; every other body makes a
fault escape.
-/

namespace Ccmqsrv

open Foundations

/-- A message on one of the two queues. -/
inductive Delivery where
  | rpc (message : Message)
  | event (body : Str)

/-- Workers that take one step each, one after the other, until one fails. -/
def runTasks (env : Env) :
    List Task → MessageQueueServer → MessageQueueServer × Cpp Unit
  | [], server => (server, .ok ())
  | task :: rest, server =>
      let (after, worked) := workStep env server task
      match worked.outcome with
      | .ok _ => runTasks env rest after
      | .error fault => (after, .error fault)

/-- The consumer callback of the event queue and the workers it starts. -/
def processEvent (env : Env) (server : MessageQueueServer) (body : Str) :
    MessageQueueServer × Cpp Unit :=
  match onEventMessage env server body with
  | .ok tasks => runTasks env tasks server
  | .error fault => (server, .error fault)

/-- The consumer callback of the RPC queue and its worker. -/
def processRpc (env : Env) (server : MessageQueueServer) (message : Message) :
    MessageQueueServer × Cpp Unit :=
  let (after, envelope) := rpcWorker env server message
  (after, envelope >>= fun _ => .ok ())

def process (env : Env) (server : MessageQueueServer) :
    Delivery → MessageQueueServer × Cpp Unit
  | .rpc message => processRpc env server message
  | .event body => processEvent env server body

/-- An event worker that calls `f` ends normally. -/
def Handled (f : Handler) (data : List Any) : Prop :=
  ∃ args, getTuple f.params data = .ok args ∧ Caught (f.func args)

/-- The messages the server survives. -/
def Acceptable (env : Env) (server : MessageQueueServer) : Delivery → Prop
  | .rpc message =>
      ∃ document request, env.json.parse message.body = some document ∧
        RequestItems env (jsonItems document) message.correlationID request ∧
        validUtf8 message.correlationID = true ∧
        (request.kws ≠ [] ∨
          ∃ f, server.rpcFuncMap.lookup request.meth = some (some f) ∧
            Replied f request.args)
  | .event body =>
      ∃ document eventType eventData, env.json.parse (cString body) = some document ∧
        (jsonItems document)[0]? = some (.string eventType) ∧
        (jsonItems document)[1]? = some eventData ∧
        ∀ cbId ∈ (handlersAt server eventType).keys,
          ∃ f, (handlersAt server eventType).lookup cbId = some (some f) ∧
            Handled f [.string eventType, parseJsonElement eventData]

variable {env : Env} {server : MessageQueueServer}

section Rpc

variable {message : Message}

private theorem rpcFind_of_route {document : Json} {request : Request} {found : Lookup}
    (parsed : env.json.parse message.body = some document)
    (shape : RequestItems env (jsonItems document) message.correlationID request)
    (route : rpcRoute env server message request = .ok found) :
    rpcFind env server message = .ok found :=
  rpcFind_eq_ok.mpr ⟨document, request, parsed, shape, route⟩

private theorem acceptable_of_rpcWorker (lawful : env.json.Lawful) {envelope : Envelope}
    (done : rpcWorker env server message = (server, .ok envelope)) :
    Acceptable env server (.rpc message) := by
  cases looked : rpcFind env server message with
  | error fault =>
      unfold rpcWorker at done
      rw [looked] at done
      cases done
  | ok found =>
      obtain ⟨document, request, parsed, shape, route⟩ := rpcFind_eq_ok.mp looked
      by_cases keywords : request.kws ≠ []
      · obtain ⟨res, caught, answers, _⟩ := keywordReply lawful message
        rw [rpcRoute_keywords keywords, caught, ok_bind] at route
        cases route
        rw [rpcWorker_reply looked] at done
        have sent := congrArg Prod.snd done
        have idValid := ((sendReply_of_answers lawful answers).mp ⟨envelope, sent⟩).1
        exact ⟨document, request, parsed, shape, idValid, Or.inl keywords⟩
      · have noKeywords : request.kws = [] := not_not.mp keywords
        cases registered : server.rpcFuncMap.lookup request.meth with
        | none =>
            rw [rpcRoute_missing noKeywords registered] at route
            cases route
            rw [rpcWorker_reply looked, sendReply_initialRes lawful] at done
            cases congrArg Prod.snd done
        | some function =>
            rw [rpcRoute_found noKeywords (by rw [registered]; rfl)] at route
            cases route
            rw [rpcWorker_call looked registered] at done
            have sent := congrArg Prod.snd done
            cases function with
            | none => cases sent
            | some f =>
                obtain ⟨idValid, replied⟩ :=
                  (call_sendReply_iff lawful).mp ⟨envelope, sent⟩
                exact ⟨document, request, parsed, shape, idValid,
                  Or.inr ⟨f, registered, replied⟩⟩

private theorem rpcWorker_of_acceptable (lawful : env.json.Lawful)
    (acceptable : Acceptable env server (.rpc message)) :
    ∃ envelope, rpcWorker env server message = (server, .ok envelope) := by
  obtain ⟨document, request, parsed, shape, idValid, answered⟩ := acceptable
  by_cases keywords : request.kws ≠ []
  · obtain ⟨res, caught, answers, errorValid⟩ := keywordReply lawful message
    have route : rpcRoute env server message request = .ok (.reply res) := by
      rw [rpcRoute_keywords keywords, caught, ok_bind]
    obtain ⟨envelope, sent⟩ :=
      (sendReply_of_answers lawful answers).mpr ⟨idValid, errorValid⟩
    refine ⟨envelope, ?_⟩
    rw [rpcWorker_reply (rpcFind_of_route parsed shape route), sent]
  · have noKeywords : request.kws = [] := not_not.mp keywords
    rcases answered with impossible | ⟨f, registered, replied⟩
    · exact absurd impossible keywords
    · have found : (server.rpcFuncMap.lookup request.meth).isSome = true := by
        rw [registered]
        rfl
      have route : rpcRoute env server message request =
          .ok (.call request.meth request.args) := rpcRoute_found noKeywords found
      obtain ⟨envelope, sent⟩ := (call_sendReply_iff lawful).mpr ⟨idValid, replied⟩
      refine ⟨envelope, ?_⟩
      rw [rpcWorker_call (rpcFind_of_route parsed shape route) registered, sent]

end Rpc

section Event

private theorem eventCatch_eq_ok {called : Cpp Res} :
    eventCatch called = .ok () ↔
      (∃ res, called = .ok res) ∨ ∃ text, called = throwing (.runtimeError text) := by
  cases called with
  | ok res => simp [eventCatch]
  | error fault =>
      cases fault with
      | thrown exception => cases exception <;> simp [eventCatch, throwing]
      | abort => simp [eventCatch, throwing]
      | undefined => simp [eventCatch, throwing]

/-- An event worker ends normally exactly when its handler does. -/
theorem eventCatch_callFunction (lawful : env.json.Lawful) {f : Handler} {data : List Any} :
    eventCatch (callFunction env (some f) {} data).outcome = .ok () ↔ Handled f data := by
  show eventCatch (callproxy env f {} data).outcome = .ok () ↔ _
  rw [eventCatch_eq_ok]
  cases converted : getTuple f.params data with
  | error fault =>
      rw [callproxy_of_error converted]
      constructor
      · rintro (⟨res, impossible⟩ | ⟨text, same⟩)
        · cases impossible
        · cases same
          exact absurd (escapes_of_getTuple converted) id
      · rintro ⟨args, same, _⟩
        rw [converted] at same
        cases same
  | ok args =>
      have onlyArgs : Handled f data ↔ Caught (f.func args) := by
        constructor
        · rintro ⟨other, same, caught⟩
          rw [converted] at same
          cases same
          exact caught
        · intro caught
          exact ⟨args, converted, caught⟩
      rw [onlyArgs, callproxy_of_args converted]
      cases f.func args with
      | ok value =>
          have wellFormed : Json.WellFormed (.array [value.document]) := by
            simpa using value.document_wellFormed
          have printable := lawful.exists_dump_iff wellFormed
          have printed : (∃ res, (jsonDump env (.array [value.document]) >>= fun result =>
              (.ok { ({} : Res) with result } : Cpp Res)) = .ok res) ↔
                value.document.ValidUtf8 := by
            simp only [bind_eq_ok, jsonDump_eq_ok]
            constructor
            · rintro ⟨_, text, dumped, _⟩
              simpa using printable.mp ⟨text, dumped⟩
            · intro valid
              obtain ⟨text, dumped⟩ := printable.mpr (by simpa using valid)
              exact ⟨_, text, dumped, rfl⟩
          simp only [rethrowing, ok_bind]
          rw [printed]
          constructor
          · rintro (valid | ⟨text, thrown⟩)
            · exact valid
            · unfold jsonDump throwing at thrown
              split at thrown <;> cases thrown
          · intro valid
            exact Or.inl valid
      | error exception =>
          cases exception <;> simp [rethrowing, throwing, Caught]

private theorem runTasks_cons {eventType : Str} {cbId : Int} {eventData : Any}
    {function : Function} {tasks : List Task}
    (found : (handlersAt server eventType).lookup cbId = some function) :
    runTasks env (.event eventType cbId eventData :: tasks) server =
      match eventCatch (callFunction env function {} [.string eventType, eventData]).outcome with
      | .ok _ => runTasks env tasks server
      | .error fault => (server, .error fault) := by
  rw [runTasks]
  simp only [workStep, eventWorker_of_lookup found]
  simp only [Recorded.andThen]
  cases eventCatch (callFunction env function {} [.string eventType, eventData]).outcome <;> rfl

/-- The workers of one event leave the tables alone, and all end normally
exactly when all handlers do. -/
private theorem runTasks_event (lawful : env.json.Lawful) {eventType : Str}
    {eventData : Any} :
    ∀ {ids : List Int},
      (∀ cbId ∈ ids, ((handlersAt server eventType).lookup cbId).isSome = true) →
        (runTasks env (ids.map fun cbId => .event eventType cbId eventData) server =
            (server, .ok ()) ↔
          ∀ cbId ∈ ids, ∃ f, (handlersAt server eventType).lookup cbId = some (some f) ∧
            Handled f [.string eventType, eventData])
  | [], _ => by
      simp [runTasks]
  | cbId :: rest, present => by
      obtain ⟨headPresent, restPresent⟩ := List.forall_mem_cons.mp present
      obtain ⟨function, found⟩ := Option.isSome_iff_exists.mp headPresent
      have tail : runTasks env (rest.map fun cbId => .event eventType cbId eventData) server =
          (server, .ok ()) ↔ _ := runTasks_event lawful restPresent
      rw [List.forall_mem_cons, ← tail, List.map_cons, runTasks_cons found]
      cases function with
      | none =>
          constructor
          · intro done
            cases congrArg Prod.snd done
          · rintro ⟨⟨f, same, _⟩, _⟩
            rw [found] at same
            cases same
      | some f =>
          have worker : eventCatch (callFunction env (some f) {}
              [.string eventType, eventData]).outcome = .ok () ↔ _ :=
            eventCatch_callFunction lawful
          cases caught : eventCatch
              (callFunction env (some f) {} [.string eventType, eventData]).outcome with
          | ok done =>
              have handled := worker.mp caught
              exact ⟨fun rest => ⟨⟨f, found, handled⟩, rest⟩, fun both => both.2⟩
          | error fault =>
              constructor
              · intro done
                cases congrArg Prod.snd done
              · rintro ⟨⟨other, same, handled⟩, _⟩
                rw [found] at same
                cases same
                rw [worker.mpr handled] at caught
                cases caught

theorem onEventMessage_eq_ok {body : Str} {tasks : List Task} :
    onEventMessage env server body = .ok tasks ↔
      ∃ document eventType eventData, env.json.parse (cString body) = some document ∧
        (jsonItems document)[0]? = some (.string eventType) ∧
        (jsonItems document)[1]? = some eventData ∧
        tasks = (handlersAt server eventType).keys.map fun cbId =>
          .event eventType cbId (parseJsonElement eventData) := by
  unfold onEventMessage
  simp only [bind_eq_ok, jsonLoadb_eq_ok, subscript_eq_ok, anyCast_eq_ok, Any.asString_eq_some,
    pure, Except.pure, eventTasks_eq]
  constructor
  · rintro ⟨_, ⟨document, parsed, rfl⟩, _, zeroth, eventType, rfl, _, first, returned⟩
    rw [List.getElem?_map, Option.map_eq_some_iff] at zeroth first
    obtain ⟨typeItem, typeFound, typeParsed⟩ := zeroth
    obtain ⟨eventData, dataFound, rfl⟩ := first
    rw [parseJsonElement_eq_string.mp typeParsed] at typeFound
    injection returned with returned
    exact ⟨document, eventType, eventData, parsed, typeFound, dataFound, returned.symm⟩
  · rintro ⟨document, eventType, eventData, parsed, zeroth, first, rfl⟩
    refine ⟨_, ⟨document, parsed, rfl⟩, _, ?_, eventType, rfl, _, ?_, rfl⟩
    · rw [List.getElem?_map, zeroth]
      rfl
    · rw [List.getElem?_map, first]
      rfl

end Event

theorem processRpc_eq_ok_iff (lawful : env.json.Lawful) (message : Message) :
    processRpc env server message = (server, .ok ()) ↔
      Acceptable env server (.rpc message) := by
  unfold processRpc
  constructor
  · intro done
    obtain ⟨kept, sent⟩ := Prod.mk.inj done
    obtain ⟨envelope, outcome, _⟩ := bind_eq_ok.mp sent
    exact acceptable_of_rpcWorker lawful (Prod.ext kept outcome)
  · intro acceptable
    obtain ⟨envelope, done⟩ := rpcWorker_of_acceptable lawful acceptable
    rw [done]
    rfl

theorem processEvent_eq_ok_iff (lawful : env.json.Lawful) (body : Str) :
    processEvent env server body = (server, .ok ()) ↔
      Acceptable env server (.event body) := by
  have keysPresent : ∀ eventType, ∀ cbId ∈ (handlersAt server eventType).keys,
      ((handlersAt server eventType).lookup cbId).isSome = true :=
    fun _ _ member => OrderedMap.mem_keys_iff.mp member
  unfold processEvent
  constructor
  · intro done
    cases received : onEventMessage env server body with
    | error fault =>
        rw [received] at done
        cases done
    | ok tasks =>
        rw [received] at done
        obtain ⟨document, eventType, eventData, parsed, zeroth, first, rfl⟩ :=
          onEventMessage_eq_ok.mp received
        have handled := (runTasks_event lawful (keysPresent eventType)).mp done
        exact ⟨document, eventType, eventData, parsed, zeroth, first, handled⟩
  · rintro ⟨document, eventType, eventData, parsed, zeroth, first, handled⟩
    have received : onEventMessage env server body = .ok _ := onEventMessage_eq_ok.mpr
      ⟨document, eventType, eventData, parsed, zeroth, first, rfl⟩
    rw [received]
    exact (runTasks_event lawful (keysPresent eventType)).mpr handled

/-- The server survives a message with its tables unchanged exactly when the
message is acceptable. -/
theorem process_eq_ok_iff (lawful : env.json.Lawful) (server : MessageQueueServer)
    (delivery : Delivery) :
    process env server delivery = (server, .ok ()) ↔ Acceptable env server delivery := by
  cases delivery with
  | rpc message => exact processRpc_eq_ok_iff lawful message
  | event body => exact processEvent_eq_ok_iff lawful body

/-- A body that is not JSON. -/
def notJson : Message where
  body := ascii "hello"
  correlationID := ascii "corr-1"
  replyTo := ascii "cbq-1"

theorem process_eq_ok_iff_notJson :
    process ⟨codec, false⟩ {} (.rpc notJson) = ({}, .ok ()) ↔
      Acceptable ⟨codec, false⟩ {} (.rpc notJson) :=
  @process_eq_ok_iff ⟨codec, false⟩ codec_lawful {} (.rpc notJson)

/-- An exception escapes the worker of a message that is not JSON. -/
theorem not_process_notJson :
    ¬ ∀ (server : MessageQueueServer) (delivery : Delivery),
      process ⟨codec, false⟩ server delivery = (server, .ok ()) := by
  intro survives
  have claimed := survives {} (.rpc notJson)
  have escaped : process ⟨codec, false⟩ {} (.rpc notJson) =
      ({}, throwing .jsonException) := rfl
  rw [escaped] at claimed
  cases congrArg Prod.snd claimed

end Ccmqsrv
