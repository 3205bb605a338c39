import Ccmqsrv.OutcomeFidelity

/-!
# Every request is answered once

Runs of the server over well-formed requests, with any order of the workers
and any registration calls in between.  As long as every worker finds its
method and the outcome of the function can be put into a reply, no fault
occurs and the published replies are, up to their order, the delivered
requests.
-/

namespace Ccmqsrv

open Foundations

namespace Server

/-- Where a reply goes and which request it answers. -/
abbrev Address := Str × Str

def messageAddress (message : Message) : Address :=
  (message.replyTo, message.correlationID)

def envelopeAddress (envelope : Envelope) : Address :=
  (envelope.routingKey, envelope.correlationID)

/-- The request a worker is handling. -/
def taskAddress : Task → Address
  | .rpc message => messageAddress message
  | .rpcCall message _ _ => messageAddress message
  | .rpcReply message _ => messageAddress message
  | .event _ _ _ => ([], [])

/-- The requests delivered in a run. -/
def delivered (trace : List Action) : List Address :=
  trace.filterMap fun
    | .rpcMessage message => some (messageAddress message)
    | _ => none

/-- Runs over well-formed requests. -/
def RequestsOnly (env : Env) : State → Action → Prop
  | _, .rpcMessage message => ∃ meth args kws, IsRequest env message meth args kws
  | _, .work _ => True
  | _, .registerRpc _ _ => True
  | _, .unregisterRpc _ => True
  | _, _ => False

/-- The next step of the worker finds what it needs. -/
def Served (env : Env) (server : MessageQueueServer) : Task → Prop
  | .rpc message => ∀ meth args kws, IsRequest env message meth args kws →
      kws ≠ [] ∨ (server.rpcFuncMap.lookup meth).isSome = true
  | .rpcCall _ meth args => ∃ f, server.rpcFuncMap.lookup meth = some (some f) ∧
      Replied f args
  | .rpcReply _ _ => True
  | .event _ _ _ => True

/-- Runs over well-formed requests in which every worker is served. -/
def RequestsServed (env : Env) (state : State) (action : Action) : Prop :=
  RequestsOnly env state action ∧
    ∀ index task, action = .work index → state.tasks[index]? = some task →
      Served env state.server task

/-- The envelope is a reply to the request it is addressed to. -/
def IsReply (env : Env) (envelope : Envelope) : Prop :=
  ∃ error result, env.json.parse envelope.body = some (.array
    [.int 1, .string envelope.correlationID, error, result])

/-- No fault, and once the pool is idle exactly one reply for each request. -/
def RepliesOnce (env : Env) (trace : List Action) (state : State) : Prop :=
  state.fault = none ∧
    (state.tasks = [] →
      (state.published.map envelopeAddress).Perm (delivered trace) ∧
        ∀ envelope ∈ state.published, IsReply env envelope)

/-- What is known of a worker in the middle of a run. -/
def Sound (env : Env) : Task → Prop
  | .rpc message => ∃ meth args kws, IsRequest env message meth args kws
  | .rpcCall message _ _ => validUtf8 message.correlationID = true
  | .rpcReply message res => validUtf8 message.correlationID = true ∧
      ∃ document, res.Answers env message document ∧ validUtf8 res.error = true
  | .event _ _ _ => False

/-- What a step of a worker leaves: the request is either still being handled
or has been answered. -/
structure StepResult (env : Env) (task : Task) (next : List Task)
    (published : List Envelope) : Prop where
  address_eq : published.map envelopeAddress ++ next.map taskAddress = [taskAddress task]
  sound : ∀ later ∈ next, Sound env later
  replies : ∀ envelope ∈ published, IsReply env envelope

private theorem StepResult.continues {env : Env} {task later : Task}
    (same : taskAddress later = taskAddress task) (sound : Sound env later) :
    StepResult env task [later] [] where
  address_eq := by
    simp [same]
  sound := by
    simpa using sound
  replies := by
    simp

variable {env : Env} {server : MessageQueueServer}

private theorem workStep_rpc (lawful : env.json.Lawful) {message : Message}
    (sound : Sound env (.rpc message)) (served : Served env server (.rpc message)) :
    ∃ next, workStep env server (.rpc message) = (server, ⟨[], .ok ([next], [])⟩) ∧
      StepResult env (.rpc message) [next] [] := by
  obtain ⟨meth, args, kws, request⟩ := sound
  have idValid := request.validUtf8_id lawful
  obtain ⟨data, loaded, decoded⟩ := request.decoded
  have found : ∀ {lookup : Lookup},
      rpcRoute env server message
          ⟨message.correlationID, meth, args.map parseJsonElement, parseMembers [] kws⟩ =
        .ok lookup →
          workStep env server (.rpc message) =
            (server, ⟨[], .ok ([afterLookup message lookup], [])⟩) := by
    intro lookup route
    have looked : rpcFind env server message = .ok lookup := by
      unfold rpcFind
      rw [loaded, ok_bind, decoded, ok_bind, route]
    rw [workStep, looked]
    rfl
  by_cases keywords : kws = []
  · have noKws : parseMembers [] kws = [] := parseMembers_eq_nil.mpr keywords
    rcases served meth args kws request with impossible | registered
    · exact absurd keywords impossible
    · have route := found (rpcRoute_found noKws registered)
      exact ⟨_, route, StepResult.continues rfl idValid⟩
  · have someKws : parseMembers [] kws ≠ [] := fun isEmpty =>
      keywords (parseMembers_eq_nil.mp isEmpty)
    obtain ⟨res, caught, answers, errorValid⟩ := keywordReply lawful message
    have route : rpcRoute env server message
        ⟨message.correlationID, meth, args.map parseJsonElement, parseMembers [] kws⟩ =
          .ok (.reply res) := by
      rw [rpcRoute_keywords someKws, caught, ok_bind]
    exact ⟨_, found route, StepResult.continues rfl ⟨idValid, .null, answers, errorValid⟩⟩

private theorem workStep_rpcCall (lawful : env.json.Lawful) {message : Message} {meth : Str}
    {args : List Any} (sound : Sound env (.rpcCall message meth args))
    (served : Served env server (.rpcCall message meth args)) :
    ∃ calls next,
      workStep env server (.rpcCall message meth args) = (server, ⟨calls, .ok ([next], [])⟩) ∧
        StepResult env (.rpcCall message meth args) [next] [] := by
  obtain ⟨f, registered, replied⟩ := served
  obtain ⟨res, document, called, answers, errorValid⟩ := call_replied lawful message replied
  refine ⟨(callFunction env (some f) (initialRes message) args).calls,
    .rpcReply message res, ?_,
    StepResult.continues rfl ⟨sound, document, answers, errorValid⟩⟩
  rw [workStep, rpcCall_of_lookup registered]
  simp only [Recorded.andThen, called]
  rfl

private theorem workStep_rpcReply (lawful : env.json.Lawful) {message : Message} {res : Res}
    (sound : Sound env (.rpcReply message res)) :
    ∃ envelope,
      workStep env server (.rpcReply message res) = (server, ⟨[], .ok ([], [envelope])⟩) ∧
        StepResult env (.rpcReply message res) [] [envelope] := by
  obtain ⟨idValid, document, answers, errorValid⟩ := sound
  obtain ⟨envelope, sent⟩ := (sendReply_of_answers lawful answers).mpr ⟨idValid, errorValid⟩
  obtain ⟨toReply, toId, _, parsed⟩ := sendReply_eq_ok lawful answers sent
  refine ⟨envelope, ?_, ?_, ?_, ?_⟩
  · rw [workStep, sent]
    rfl
  · have address : envelopeAddress envelope = messageAddress message := Prod.ext toReply toId
    simp [address, taskAddress]
  · simp
  · rw [List.forall_mem_singleton]
    refine ⟨.string res.error, document, ?_⟩
    rw [toId]
    exact parsed

/-- One step of a served worker. -/
theorem workStep_sound (lawful : env.json.Lawful) {task : Task} (sound : Sound env task)
    (served : Served env server task) :
    ∃ calls next published,
      workStep env server task = (server, ⟨calls, .ok (next, published)⟩) ∧
        StepResult env task next published := by
  cases task with
  | rpc message =>
      obtain ⟨next, stepped, result⟩ := workStep_rpc lawful sound served
      exact ⟨_, _, _, stepped, result⟩
  | rpcCall message meth args =>
      obtain ⟨calls, next, stepped, result⟩ := workStep_rpcCall lawful sound served
      exact ⟨_, _, _, stepped, result⟩
  | rpcReply message res =>
      obtain ⟨envelope, stepped, result⟩ := workStep_rpcReply lawful sound
      exact ⟨_, _, _, stepped, result⟩
  | event eventType cbId eventData => exact False.elim sound

/-- The invariant of these runs: published replies and pending workers
together are the delivered requests. -/
structure Accounted (env : Env) (trace : List Action) (state : State) : Prop where
  fault : state.fault = none
  perm : (state.published.map envelopeAddress ++ state.tasks.map taskAddress).Perm
    (delivered trace)
  sound : ∀ task ∈ state.tasks, Sound env task
  replies : ∀ envelope ∈ state.published, IsReply env envelope

private theorem delivered_append (trace : List Action) (action : Action) :
    delivered (trace ++ [action]) = delivered trace ++ delivered [action] :=
  List.filterMap_append

private theorem Accounted.work {trace : List Action} {state : State} {index : Nat}
    {task : Task} {next : List Task} {published : List Envelope} {server : MessageQueueServer}
    {calls : List WorkerCall} (accounted : Accounted env trace state) (found : state.tasks[index]? = some task)
    (result : StepResult env task next published) :
    Accounted env (trace ++ [.work index])
      { state with
        server
        tasks := next ++ state.tasks.eraseIdx index
        published := state.published ++ published
        calls } where
  fault := accounted.fault
  perm := by
    obtain ⟨inBounds, taskEq⟩ := List.getElem?_eq_some_iff.mp found
    have split : (taskAddress task :: (state.tasks.eraseIdx index).map taskAddress).Perm
        (state.tasks.map taskAddress) := by
      have taken := (List.getElem_cons_eraseIdx_perm inBounds).map taskAddress
      rw [taskEq] at taken
      exact taken
    have regrouped : (state.published ++ published).map envelopeAddress ++
        (next ++ state.tasks.eraseIdx index).map taskAddress =
          state.published.map envelopeAddress ++
            ((published.map envelopeAddress ++ next.map taskAddress) ++
              (state.tasks.eraseIdx index).map taskAddress) := by
      simp only [List.map_append, List.append_assoc]
    have unchanged : delivered (trace ++ [Action.work index]) = delivered trace := by
      rw [delivered_append]
      exact List.append_nil _
    rw [unchanged]
    show ((state.published ++ published).map envelopeAddress ++
      (next ++ state.tasks.eraseIdx index).map taskAddress).Perm _
    rw [regrouped, result.address_eq]
    exact (split.append_left _).trans accounted.perm
  sound := by
    intro later member
    rcases List.mem_append.mp member with new | old
    · exact result.sound later new
    · exact accounted.sound later (List.mem_of_mem_eraseIdx old)
  replies := by
    intro envelope member
    rcases List.mem_append.mp member with old | new
    · exact accounted.replies envelope old
    · exact result.replies envelope new

private theorem Accounted.rpcMessage {trace : List Action} {state : State} {message : Message}
    (accounted : Accounted env trace state)
    (request : ∃ meth args kws, IsRequest env message meth args kws) :
    Accounted env (trace ++ [.rpcMessage message])
      { state with tasks := .rpc message :: state.tasks } where
  fault := accounted.fault
  perm := by
    have grown : delivered (trace ++ [Action.rpcMessage message]) =
        delivered trace ++ [messageAddress message] := delivered_append trace _
    rw [grown, List.map_cons]
    have moved : (state.published.map envelopeAddress ++
        taskAddress (.rpc message) :: state.tasks.map taskAddress).Perm
          (messageAddress message ::
            (state.published.map envelopeAddress ++ state.tasks.map taskAddress)) :=
      List.perm_middle
    exact moved.trans ((accounted.perm.cons _).trans (List.perm_append_singleton _ _).symm)
  sound := List.forall_mem_cons.mpr ⟨request, accounted.sound⟩
  replies := accounted.replies

private theorem Accounted.tables {trace : List Action} {state : State} {action : Action}
    (accounted : Accounted env trace state) (silent : delivered [action] = [])
    (tables : MessageQueueServer) :
    Accounted env (trace ++ [action]) { state with server := tables } where
  fault := accounted.fault
  perm := by
    rw [delivered_append, silent, List.append_nil]
    exact accounted.perm
  sound := accounted.sound
  replies := accounted.replies

theorem Accounted.step (lawful : env.json.Lawful) {trace : List Action}
    {state after : State} {action : Action} (accounted : Accounted env trace state)
    (served : RequestsServed env state action) (effect : Effect env state action after) :
    Accounted env (trace ++ [action]) after := by
  obtain ⟨requests, finds⟩ := served
  cases effect with
  | rpcMessage message => exact accounted.rpcMessage requests
  | work found worked =>
      rename_i index task _ _ _ _
      have sound := accounted.sound task (List.mem_of_getElem? found)
      obtain ⟨calls, next, published, expected, result⟩ :=
        workStep_sound lawful sound (finds index task rfl found)
      rw [expected] at worked
      cases worked
      exact accounted.work found result
  | workFault found worked =>
      rename_i index task _ _ _
      have sound := accounted.sound task (List.mem_of_getElem? found)
      obtain ⟨calls, next, published, expected, _⟩ :=
        workStep_sound lawful sound (finds index task rfl found)
      rw [expected] at worked
      cases worked
  | registerRpc free => exact accounted.tables rfl _
  | registerRpcTaken taken => exact accounted.tables rfl state.server
  | unregisterRpc name => exact accounted.tables rfl _
  | eventMessage received => exact False.elim requests
  | eventMessageFault received => exact False.elim requests
  | registerEventHandler registered => exact False.elim requests
  | registerEventHandlerFault failed => exact False.elim requests
  | unregisterEventHandler walk => exact False.elim requests

/-- Every run in which the workers are served answers every request once. -/
theorem repliesOnce_of_served (lawful : env.json.Lawful) {trace : List Action} {state : State}
    (run : (machine env).Run (RequestsServed env) trace state) :
    RepliesOnce env trace state := by
  have accounted : Accounted env trace state := by
    refine run.invariant (Accounted env) ?_ ?_
    · exact ⟨rfl, List.Perm.refl _, by simp [machine], by simp [machine]⟩
    · intro _ _ _ _ _ held served stepped
      exact held.step lawful served (step_effect stepped).2
  refine ⟨accounted.fault, fun idle => ⟨?_, accounted.replies⟩⟩
  have perm := accounted.perm
  rw [idle, List.map_nil, List.append_nil] at perm
  exact perm

/-- A function without parameters or result. -/
def doNothing : Handler where
  params := []
  func _ := .ok .void

private def stateWith (tasks : List Task) (published : List Envelope)
    (calls : List WorkerCall) : State where
  server := serverWith (ascii "f") doNothing
  tasks := tasks
  published := published
  calls := calls

private def doNothingReply : Envelope where
  routingKey := ascii "cbq-1"
  correlationID := ascii "corr-1"
  body := ascii "[1,\"corr-1\",\"\",0]"

private def doNothingCall : WorkerCall where
  worker := .rpcCall plainRequest (ascii "f") []
  invocation := { f := doNothing, args := (), returned := .ok .void }

private theorem doNothing_found :
    (machine ⟨codec, false⟩).step (stateWith [.rpc plainRequest] [] []) (.work 0) =
      some (stateWith [.rpcCall plainRequest (ascii "f") []] [] []) := by
  have looked : rpcFind ⟨codec, false⟩ (serverWith (ascii "f") doNothing) plainRequest =
      .ok (.call (ascii "f") []) := by
    have request : IsRequest ⟨codec, false⟩ plainRequest (ascii "f") [] [] := rfl
    exact rpcFind_call request rfl
  have worked : workStep ⟨codec, false⟩ (serverWith (ascii "f") doNothing)
      (.rpc plainRequest) =
        (serverWith (ascii "f") doNothing,
          ⟨[], .ok ([.rpcCall plainRequest (ascii "f") []], [])⟩) := by
    rw [workStep, looked]
    rfl
  unfold machine step stateWith
  simp [worked]

private theorem doNothing_run :
    (machine ⟨codec, false⟩).Run (RequestsServed ⟨codec, false⟩)
      [.registerRpc (ascii "f") doNothing, .rpcMessage plainRequest, .work 0, .work 0, .work 0]
      (stateWith [] [doNothingReply] [doNothingCall]) := by
  have parsed : IsRequest ⟨codec, false⟩ plainRequest (ascii "f") [] [] := rfl
  have registered : (machine ⟨codec, false⟩).Run (RequestsServed ⟨codec, false⟩)
      [.registerRpc (ascii "f") doNothing] (stateWith [] [] []) := by
    refine Machine.Run.start.next ⟨trivial, ?_⟩ rfl
    intro _ _ same
    cases same
  have received : (machine ⟨codec, false⟩).Run (RequestsServed ⟨codec, false⟩)
      [.registerRpc (ascii "f") doNothing, .rpcMessage plainRequest]
      (stateWith [.rpc plainRequest] [] []) := by
    refine registered.next ⟨⟨_, _, _, parsed⟩, ?_⟩ rfl
    intro _ _ same
    cases same
  have found : (machine ⟨codec, false⟩).Run (RequestsServed ⟨codec, false⟩)
      [.registerRpc (ascii "f") doNothing, .rpcMessage plainRequest, .work 0]
      (stateWith [.rpcCall plainRequest (ascii "f") []] [] []) := by
    refine received.next ⟨trivial, ?_⟩ doNothing_found
    intro index task same taken
    cases same
    cases taken
    intro meth args kws request
    have documents := parsed.symm.trans request
    cases documents
    exact Or.inr rfl
  have called : (machine ⟨codec, false⟩).Run (RequestsServed ⟨codec, false⟩)
      [.registerRpc (ascii "f") doNothing, .rpcMessage plainRequest, .work 0, .work 0]
      (stateWith [.rpcReply plainRequest
        { initialRes plainRequest with result := ascii "[0]" }] [] [doNothingCall]) := by
    refine found.next ⟨trivial, ?_⟩ rfl
    intro index task same taken
    cases same
    cases taken
    exact ⟨doNothing, rfl, (), rfl, Json.validUtf8_int 0⟩
  refine called.next ⟨trivial, ?_⟩ rfl
  intro index task same taken
  cases same
  cases taken
  trivial

theorem repliesOnce_doNothing :
    RepliesOnce ⟨codec, false⟩
      [.registerRpc (ascii "f") doNothing, .rpcMessage plainRequest, .work 0, .work 0, .work 0]
      (stateWith [] [doNothingReply] [doNothingCall]) :=
  repliesOnce_of_served codec_lawful doNothing_run

/-- The worker of a request for an unregistered method dies without a reply. -/
theorem not_repliesOnce_unregistered :
    ¬ ∀ (trace : List Action) (state : State),
      (machine ⟨codec, false⟩).Run (RequestsOnly ⟨codec, false⟩) trace state →
        RepliesOnce ⟨codec, false⟩ trace state := by
  intro answered
  have requests : ∀ state, ∀ action ∈ [Action.rpcMessage plainRequest, .work 0, .work 0],
      RequestsOnly ⟨codec, false⟩ state action := by
    intro state action member
    have request : IsRequest ⟨codec, false⟩ plainRequest (ascii "f") [] [] := rfl
    simp only [List.mem_cons, List.not_mem_nil, or_false] at member
    rcases member with rfl | rfl | rfl
    · exact ⟨_, _, _, request⟩
    · trivial
    · trivial
  have died : (((machine ⟨codec, false⟩).exec [.rpcMessage plainRequest, .work 0, .work 0]
      (machine ⟨codec, false⟩).init).any fun state => state.fault.isSome) = true := by
    decide +kernel
  obtain ⟨state, run, dead⟩ := Machine.Run.of_exec_any requests died
  rw [(answered _ state run).1] at dead
  cases dead

end Server

end Ccmqsrv
