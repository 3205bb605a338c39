import Ccmqsrv.AtMostOnce
import Ccmqsrv.Progress
import Ccmqsrv.WorkerCalls

/-!
# Events are handled once

The server takes each event from its queue once, and starts a worker for each
handler that is registered for the type at that moment.  No worker calls its
handler twice, and none is forgotten: the calls that workers have recorded
together with those that are still to be made are the calls that the events
require.  Only a worker that ended the server can have gone without its call.
-/

namespace Ccmqsrv

open Foundations

/-- The call of a handler: the type of the event, the id and the data. -/
abbrev HandlerCall := Str × Int × Any

/-- The handler that the worker is for. -/
def Task.handlerCall : Task → Option HandlerCall
  | .event eventType cbId eventData => some (eventType, cbId, eventData)
  | _ => none

/-- The calls of handlers that an event with this body requires. -/
def handlersFor (env : Env) (server : MessageQueueServer) (body : Str) : List HandlerCall :=
  match onEventMessage env server body with
  | .ok tasks => tasks.filterMap Task.handlerCall
  | .error _ => []

variable {env : Env}

private theorem handlerCall_events (cbIds : List Int) (eventType : Str) (eventData : Any) :
    (cbIds.map fun cbId => Task.event eventType cbId eventData).filterMap Task.handlerCall =
      cbIds.map fun cbId => (eventType, cbId, eventData) := by
  rw [List.filterMap_map]
  exact congrFun List.filterMap_eq_map cbIds

/-- The workers that the server starts for an event. -/
private theorem handlersFor_eq {server : MessageQueueServer} {body : Str} {tasks : List Task}
    (received : onEventMessage env server body = .ok tasks) :
    handlersFor env server body = tasks.filterMap Task.handlerCall := by
  rw [handlersFor, received]

/-- A step of a worker starts no handler. -/
private theorem handlerCall_next {server : MessageQueueServer} {task : Task}
    {next : List Task} {published : List Envelope}
    (worked : (workStep env server task).2.outcome = .ok (next, published)) :
    next.filterMap Task.handlerCall = [] := by
  cases leaves_of_workStep worked with
  | @looked message lookup looked => cases lookup <;> rfl
  | called called => rfl
  | replied sent => rfl
  | handled => rfl

namespace Server

/-- The handlers that workers have called. -/
def State.handlerCalls (state : State) : List HandlerCall :=
  state.calls.filterMap fun call => call.worker.handlerCall

/-- The handlers that workers are still to call. -/
def State.handlersDue (state : State) : List HandlerCall :=
  state.tasks.filterMap Task.handlerCall

/-- The calls of handlers that the step requires. -/
def requires (env : Env) (state : State) : Action → List HandlerCall
  | .eventMessage body => handlersFor env state.server body
  | _ => []

/-- Each required call was recorded or is still to be made, but for that of a
worker that ended the server without it. -/
def Handles (required : List HandlerCall) (state : State) : Prop :=
  ∃ fallen, (state.handlerCalls ++ fallen ++ state.handlersDue).Perm required ∧
    fallen.length ≤ 1 ∧ (state.fault = none → fallen = [])

variable {state after : State} {action : Action} {required : List HandlerCall}

/-- The calls that a worker records are of its handler. -/
private theorem handlerCalls_append (calls : List Invocation) (task : Task) :
    (state.calls ++ calls.map (WorkerCall.mk task)).filterMap
        (fun call => call.worker.handlerCall) =
      state.handlerCalls ++ calls.flatMap fun _ => task.handlerCall.toList := by
  rw [List.filterMap_append, List.filterMap_map]
  exact congrArg (state.handlerCalls ++ ·) (List.filterMap_eq_flatMap_toList _ calls)

/-- A worker that gets past its call has recorded it. -/
private theorem recorded_of_ok (lawful : env.json.Lawful) {server : MessageQueueServer}
    {task : Task} {calls : List Invocation} {next : List Task} {published : List Envelope}
    (worked : workStep env state.server task = (server, ⟨calls, .ok (next, published)⟩)) :
    (calls.flatMap fun _ => task.handlerCall.toList) = task.handlerCall.toList := by
  cases task with
  | event eventType cbId eventData =>
      have outcome := congrArg (fun worked => worked.2.outcome) worked
      obtain ⟨invocation, same⟩ := workStep_event_calls lawful outcome
      rw [worked] at same
      cases same
      rfl
  | _ => exact List.flatMap_eq_nil_iff.mpr fun _ _ => rfl

/-- A worker has recorded its call, or none. -/
private theorem recorded_cases {server : MessageQueueServer} {task : Task}
    {recorded : Recorded (List Task × List Envelope)}
    (worked : workStep env state.server task = (server, recorded)) :
    (recorded.calls.flatMap fun _ => task.handlerCall.toList) = task.handlerCall.toList ∨
      (recorded.calls.flatMap fun _ => task.handlerCall.toList) = [] := by
  rcases workStep_calls env state.server task with nothing | ⟨invocation, same, _⟩
  · rw [worked] at nothing
    rw [show recorded.calls = [] from nothing]
    exact Or.inr rfl
  · rw [worked] at same
    rw [show recorded.calls = [invocation] from same]
    exact Or.inl (List.append_nil _)

theorem Handles.next (handles : Handles required state) (lawful : env.json.Lawful)
    (alive : state.fault = none) (effect : Effect env state action after) :
    Handles (required ++ requires env state action) after := by
  obtain ⟨fallen, accounted, _, noneFallen⟩ := handles
  cases noneFallen alive
  rw [List.append_nil] at accounted
  have still : after.handlerCalls = state.handlerCalls → after.handlersDue = state.handlersDue →
      Handles (required ++ []) after := by
    intro sameCalls sameDue
    refine ⟨[], ?_, Nat.zero_le 1, fun _ => rfl⟩
    rw [List.append_nil, List.append_nil, sameCalls, sameDue]
    exact accounted
  cases effect with
  | @eventMessage body tasks received =>
      refine ⟨[], ?_, Nat.zero_le 1, fun _ => rfl⟩
      show (state.handlerCalls ++ [] ++ (tasks ++ state.tasks).filterMap Task.handlerCall).Perm _
      rw [requires, handlersFor_eq received, List.filterMap_append, List.append_nil]
      refine (List.perm_append_comm_assoc state.handlerCalls _ _).trans ?_
      exact (accounted.append_left _).trans List.perm_append_comm
  | @eventMessageFault body fault failed =>
      rw [requires, handlersFor, failed]
      exact still rfl rfl
  | @work place task server calls next published found worked =>
      have outcome := congrArg (fun worked => worked.2.outcome) worked
      refine ⟨[], ?_, Nat.zero_le 1, fun _ => rfl⟩
      show ((state.calls ++ calls.map (WorkerCall.mk task)).filterMap _ ++ [] ++
        (next ++ state.tasks.eraseIdx place).filterMap Task.handlerCall).Perm (required ++ [])
      rw [handlerCalls_append, recorded_of_ok lawful worked, List.filterMap_append,
        handlerCall_next outcome, List.nil_append, List.append_nil, List.append_nil,
        List.append_assoc]
      exact ((filterMap_eraseIdx Task.handlerCall found).append_left _).trans accounted
  | @workFault place task server calls fault found worked =>
      have parted := ((filterMap_eraseIdx Task.handlerCall found).append_left
        state.handlerCalls).trans accounted
      rw [← List.append_assoc] at parted
      rcases recorded_cases worked with isRecorded | nothing
      · refine ⟨[], ?_, Nat.zero_le 1, fun _ => rfl⟩
        show ((state.calls ++ calls.map (WorkerCall.mk task)).filterMap _ ++ [] ++
          (state.tasks.eraseIdx place).filterMap Task.handlerCall).Perm (required ++ [])
        rw [handlerCalls_append, isRecorded, List.append_nil, List.append_nil]
        exact parted
      · refine ⟨task.handlerCall.toList, ?_, ?_, fun impossible => by cases impossible⟩
        · show ((state.calls ++ calls.map (WorkerCall.mk task)).filterMap _ ++
            task.handlerCall.toList ++
              (state.tasks.eraseIdx place).filterMap Task.handlerCall).Perm (required ++ [])
          rw [handlerCalls_append, nothing, List.append_nil, List.append_nil]
          exact parted
        · cases task.handlerCall <;> simp
  | _ => exact still rfl rfl

/-- Each recorded call is of the function that the tables of its time had for
the worker. -/
def Registered (tables : List MessageQueueServer) (state : State) : Prop :=
  ∀ call ∈ state.calls, ∃ table ∈ tables, call.worker.Calls table call.invocation

theorem Registered.next {tables : List MessageQueueServer} (registered : Registered tables state)
    (effect : Effect env state action after) : Registered (state.server :: tables) after := by
  have earlier : Registered (state.server :: tables) state := by
    intro call member
    obtain ⟨table, isTable, calls⟩ := registered call member
    exact ⟨table, List.mem_cons_of_mem _ isTable, calls⟩
  have worker : ∀ {task : Task} {server : MessageQueueServer}
      {recorded : Recorded (List Task × List Envelope)},
      workStep env state.server task = (server, recorded) →
        ∀ call ∈ state.calls ++ recorded.calls.map (WorkerCall.mk task),
          ∃ table ∈ state.server :: tables, call.worker.Calls table call.invocation := by
    intro task server recorded worked call member
    rcases List.mem_append.mp member with isOld | isNew
    · exact earlier call isOld
    · obtain ⟨invocation, isCall, rfl⟩ := List.mem_map.mp isNew
      rcases workStep_calls env state.server task with nothing | ⟨made, same, calls⟩
      · rw [worked] at nothing
        rw [show recorded.calls = [] from nothing] at isCall
        cases isCall
      · rw [worked] at same
        rw [show recorded.calls = [made] from same] at isCall
        cases List.mem_singleton.mp isCall
        exact ⟨state.server, List.mem_cons_self, calls⟩
  cases effect with
  | work found worked => exact worker worked
  | workFault found worked => exact worker worked
  | _ => exact earlier

end Server

namespace Deployment

/-- An event with the tables that the server had when it took it. -/
abbrev Taking := Parcel × MessageQueueServer

/-- The calls of handlers that the event requires. -/
def requires (env : Env) (taking : Taking) : List HandlerCall :=
  handlersFor env taking.2 taking.1.message.body

/-- The event that the server takes in the step. -/
def takes (site : Site) (before : State) (action : Action) (after : State) : List Taking :=
  match action with
  | .event =>
      ((after.traffic.delivered site.eventQueue).drop
        (before.traffic.delivered site.eventQueue).length).map
          fun parcel => (parcel, before.parties.server.server)
  | _ => []

/-- The events that the server has taken in the run. -/
def takings (env : Env) (site : Site) (trace : List Action) : List Taking :=
  (machine env site).observe (takes site) trace (machine env site).init

/-- The events that were delivered are handled once by each handler. -/
structure HandlesOnce (env : Env) (site : Site) (taken : List Taking) (state : State) : Prop where
  delivered : taken.map Prod.fst = state.traffic.delivered site.eventQueue
  handled : Server.Handles (taken.flatMap (requires env)) state.parties.server
  registered : Server.Registered state.parties.tables state.parties.server
  published : ∀ taking ∈ taken, ∃ index evtType eventData,
    .publish site.eventExchange taking.1.routingKey taking.1.message ∈
        (state.parties.clients index).commands ∧
      jsonDump env (.array [.string evtType, eventData]) = .ok taking.1.message.body ∧
        requires env taking = (handlersAt taking.2 evtType).keys.map fun cbId =>
          (evtType, cbId, parseJsonElement eventData.scrub)

variable {site : Site} {state after : State} {action : Action} {parcel : Parcel}
  {taken : List Taking}

/-- The events that were taken stay published. -/
private theorem HandlesOnce.published_next (once : HandlesOnce env site taken state)
    (effect : Effect env site state action after) :
    ∀ taking ∈ taken, ∃ index evtType eventData,
      .publish site.eventExchange taking.1.routingKey taking.1.message ∈
          (after.parties.clients index).commands ∧
        jsonDump env (.array [.string evtType, eventData]) = .ok taking.1.message.body ∧
          requires env taking = (handlersAt taking.2 evtType).keys.map fun cbId =>
            (evtType, cbId, parseJsonElement eventData.scrub) := by
  intro taking member
  obtain ⟨index, evtType, eventData, commanded, rest⟩ := once.published taking member
  exact ⟨index, evtType, eventData, (commands_grows effect index).subset commanded, rest⟩

/-- A step that the server takes no part in. -/
private theorem HandlesOnce.still (once : HandlesOnce env site taken state)
    (effect : Effect env site state action after)
    (delivered : after.traffic.delivered site.eventQueue = state.traffic.delivered site.eventQueue)
    (server : after.parties.server = state.parties.server)
    (tables : after.parties.tables = state.parties.tables) :
    HandlesOnce env site (taken ++ []) after := by
  rw [List.append_nil]
  refine ⟨delivered.symm ▸ once.delivered, ?_, ?_, once.published_next effect⟩
  · rw [server]
    exact once.handled
  · rw [server, tables]
    exact once.registered

/-- A step of the server that takes no event. -/
private theorem HandlesOnce.putServer (once : HandlesOnce env site taken state)
    (lawful : env.json.Lawful) (effect : Effect env site state action after)
    (delivered : after.traffic.delivered site.eventQueue = state.traffic.delivered site.eventQueue)
    {serverAction : Server.Action} {server : Server.State}
    (moved : Server.step env state.parties.server serverAction = some server)
    (isAfter : after.parties = state.parties.putServer server)
    (noEvent : Server.requires env state.parties.server serverAction = []) :
    HandlesOnce env site (taken ++ []) after := by
  obtain ⟨alive, serverEffect⟩ := Server.step_effect moved
  have handled := once.handled.next lawful alive serverEffect
  rw [noEvent, List.append_nil] at handled
  rw [List.append_nil]
  refine ⟨delivered.symm ▸ once.delivered, ?_, ?_, once.published_next effect⟩
  · rw [isAfter]
    exact handled
  · rw [isAfter]
    exact once.registered.next serverEffect

/-- The server takes an event and starts its workers. -/
private theorem HandlesOnce.event (once : HandlesOnce env site taken state)
    (lawful : env.json.Lawful) (sound : Sound env site state)
    (effect : Effect env site state .event after)
    {consumer : Consumer Connection Str} {tag : Nat} {broker : Broker Connection Str Parcel}
    {server : Server.State} (queue : consumer.queue = site.eventQueue)
    (delivers : state.traffic.broker.Delivers consumer parcel tag broker)
    (moved : Server.step env state.parties.server (.eventMessage parcel.message.body) =
      some server)
    (isAfter : after = { state with
      parties := state.parties.putServer server
      traffic := state.traffic.delivering consumer.queue parcel broker }) :
    HandlesOnce env site (taken ++ takes site state .event after) after := by
  have publishedNext := once.published_next effect
  subst isAfter
  have came := arrived_of_delivers delivers
  rw [queue] at came
  obtain ⟨index, evtType, eventData, wellFormed, dumped, commanded⟩ :=
    event_of_arrived sound.settled sound.behaved came
  have received := onEventMessage_of_arrived lawful state.parties.server.server wellFormed dumped
  have required := handlersFor_eq received
  rw [handlerCall_events] at required
  have isTaken : takes site state .event { state with
      parties := state.parties.putServer server
      traffic := state.traffic.delivering consumer.queue parcel broker } =
        [(parcel, state.parties.server.server)] := by
    rw [takes, queue, Traffic.delivered_delivering_self, List.drop_left]
    rfl
  obtain ⟨alive, serverEffect⟩ := Server.step_effect moved
  rw [isTaken]
  refine ⟨?_, ?_, once.registered.next serverEffect, ?_⟩
  · show _ = (state.traffic.delivering consumer.queue parcel broker).delivered site.eventQueue
    rw [queue, Traffic.delivered_delivering_self, List.map_append, once.delivered]
    rfl
  · rw [List.flatMap_append, List.flatMap_singleton]
    exact once.handled.next lawful alive serverEffect
  · intro taking member
    rcases List.mem_append.mp member with earlier | isLast
    · exact publishedNext taking earlier
    · cases List.mem_singleton.mp isLast
      exact ⟨index, evtType, eventData, commanded, dumped, required⟩

theorem HandlesOnce.next (once : HandlesOnce env site taken state)
    (lawful : env.json.Lawful) (sound : Sound env site state)
    (effect : Effect env site state action after) :
    HandlesOnce env site (taken ++ takes site state action after) after := by
  have whole := effect
  cases effect with
  | handle next handled => exact once.still whole rfl rfl rfl
  | refuse next refused => exact once.still whole rfl rfl rfl
  | start ready => exact once.still whole rfl rfl rfl
  | client notDelivery fresh isRunning isGranted moved => exact once.still whole rfl rfl rfl
  | @reply index consumer parcel tag broker client connection queue delivers moved =>
      refine once.still whole ?_ rfl rfl
      rw [queue]
      exact Traffic.delivered_delivering_of_ne _ _ _ (site.callbackNotEvent index).symm
  | @request consumer parcel tag broker server connection queue delivers moved =>
      have came := arrived_of_delivers delivers
      rw [queue] at came
      have named := (holds_of_arrived sound.settled sound.behaved came).2.named
      refine once.putServer lawful whole ?_ moved rfl rfl
      rw [queue]
      exact Traffic.delivered_delivering_of_ne _ _ _ (site.queuesApart named).symm
  | event connection queue delivers moved =>
      exact once.event lawful sound whole queue delivers moved rfl
  | @server serverAction server notMessage moved =>
      refine once.putServer lawful whole rfl moved rfl ?_
      cases serverAction with
      | eventMessage body => cases notMessage
      | _ => rfl

theorem handlesOnce_of_run (lawful : env.json.Lawful) {trace : List Action}
    (run : (machine env site).Run (Addressed site) trace state) :
    HandlesOnce env site (takings env site trace) state := by
  refine run.invariant (fun trace => HandlesOnce env site (takings env site trace)) ?_ ?_
  · refine ⟨rfl, ⟨[], List.Perm.nil, Nat.zero_le 1, fun _ => rfl⟩, nofun, nofun⟩
  · intro _ _ _ _ earlier once _ stepped
    rw [takings, earlier.observe_next stepped]
    exact once.next lawful (sound_of_run lawful earlier) (step_effect stepped)

/-- An event for which the example server has a handler comes to its queue. -/
def exampleWaitingEvent : List Action :=
  .server (.registerEventHandler (ascii "e") Server.doNothing) ::
    (exampleSetup ++ examplePublish ++ [.handle (.send (.client 0))])

section Handling

/-- Steps of the broker, of the server and of its workers. -/
def Handling (state : State) : Action → Prop
  | .event => True
  | action => Serving state action

theorem handling_of_serving (serving : Serving state action) : Handling state action := by
  cases action with
  | event => trivial
  | _ => exact serving

theorem addressed_of_handling (handling : Handling state action) :
    Addressed site state action := by
  cases action with
  | client index action => exact False.elim handling
  | _ => trivial

/-- The workers that are there, and those that the waiting events require, come
to an end. -/
structure Manageable (env : Env) (site : Site) (state : State) : Prop where
  workers : ∀ task ∈ state.parties.server.tasks,
    Serviceable env state.parties.server.server task
  waiting : ∀ parcel ∈ state.traffic.broker.contents site.eventQueue, ∀ tasks,
    onEventMessage env state.parties.server.server parcel.message.body = .ok tasks →
      ∀ task ∈ tasks, Serviceable env state.parties.server.server task

/-- The next event can be taken. -/
private theorem Attends.takeEvent (attends : Attends env site state) (lawful : env.json.Lawful)
    (named : site.eventQueue ≠ [])
    (waiting : state.traffic.broker.contents site.eventQueue ≠ []) :
    ∃ parcel broker tasks, state.traffic.broker.contents site.eventQueue =
        parcel :: broker.contents site.eventQueue ∧
      onEventMessage env state.parties.server.server parcel.message.body = .ok tasks ∧
      (machine env site).step state .event = some { state with
        parties := state.parties.putServer { state.parties.server with
          tasks := tasks ++ state.parties.server.tasks }
        traffic := state.traffic.delivering site.eventQueue parcel broker } := by
  have sound := attends.sound lawful
  have isConsume : .consume site.eventQueue true ∈ site.serverSetup := by
    unfold Site.serverSetup Site.eventsSetup
    rw [if_neg (by simpa using named)]
    simp
  obtain ⟨consumer, consuming, isServer, isQueue, _⟩ := attends.done lawful isConsume
  have ready : ∀ other ∈ state.traffic.broker.consumers,
      other.connection = consumer.connection → other.queue = consumer.queue →
        state.traffic.broker.ready other = true := by
    intro other otherConsuming sameConnection sameQueue
    have consumes := consumes_of_mem sound otherConsuming
    rw [sameConnection, sameQueue, isServer, isQueue] at consumes
    exact Broker.ready_of_noack consumes.noack_eventQueue
  have delivered := site.broker.delivered consuming ready (isQueue ▸ waiting)
  rw [isServer, isQueue] at delivered
  obtain ⟨⟨parcel, tag, broker⟩, delivered⟩ := Option.isSome_iff_exists.mp delivered
  obtain ⟨other, _, sameQueue, delivers⟩ := site.broker.delivers delivered
  have came := arrived_of_delivers delivers
  rw [sameQueue] at came
  obtain ⟨_, evtType, eventData, wellFormed, dumped, _⟩ :=
    event_of_arrived sound.settled sound.behaved came
  have received := onEventMessage_of_arrived lawful state.parties.server.server wellFormed dumped
  refine ⟨parcel, broker, _, ?_, received, ?_⟩
  · rw [← sameQueue]
    exact delivers.front
  · have moved : Server.step env state.parties.server (.eventMessage parcel.message.body) =
        some { state.parties.server with
          tasks := ((handlersAt state.parties.server.server evtType).keys.map fun cbId =>
            .event evtType cbId (parseJsonElement eventData.scrub)) ++
              state.parties.server.tasks } := by
      rw [Server.step, if_neg (by rw [attends.alive]; exact Bool.false_ne_true)]
      simp only [received]
    show step env site state .event = _
    rw [step, delivered]
    show (Server.step env state.parties.server (.eventMessage parcel.message.body) >>= _) = _
    rw [moved]
    rfl

/-- Events have been taken, and nothing else has happened to their queue. -/
structure Took (env : Env) (site : Site) (state later : State) : Prop where
  manageable : Manageable env site later
  arrived : later.traffic.arrived site.eventQueue = state.traffic.arrived site.eventQueue

/-- All events that wait can be taken. -/
private theorem Attends.takeAll (attends : Attends env site state) (lawful : env.json.Lawful)
    (named : site.eventQueue ≠ []) (manageable : Manageable env site state) :
    ∃ final, (machine env site).Leads Handling state final ∧ Attends env site final ∧
      Took env site state final ∧ final.traffic.broker.contents site.eventQueue = [] := by
  have reached : ∃ final, (machine env site).Leads Handling state final ∧
      (Attends env site final ∧ Took env site state final) ∧
        (final.traffic.broker.contents site.eventQueue).length = 0 := by
    refine Machine.Leads.of_measure
      (fun later => (later.traffic.broker.contents site.eventQueue).length)
      (fun later => Attends env site later ∧ Took env site state later) ?_
      ⟨attends, manageable, rfl⟩
    intro later held waits
    obtain ⟨attends, took⟩ := held
    have waiting : later.traffic.broker.contents site.eventQueue ≠ [] :=
      List.ne_nil_of_length_pos (Nat.pos_of_ne_zero waits)
    obtain ⟨parcel, broker, tasks, front, received, stepped⟩ :=
      attends.takeEvent lawful named waiting
    have allowed : Handling later .event := trivial
    obtain ⟨trace, run⟩ := attends.run
    refine ⟨_, Machine.Leads.step allowed stepped,
      ⟨⟨⟨_, run.next (addressed_of_handling allowed) stepped⟩, attends.alive, attends.setup⟩,
        ⟨⟨?_, ?_⟩, ?_⟩⟩, ?_⟩
    · intro task member
      rcases List.mem_append.mp member with isNew | isOld
      · exact took.manageable.waiting parcel (front ▸ List.mem_cons_self) tasks received task isNew
      · exact took.manageable.workers task isOld
    · intro other member
      exact took.manageable.waiting other (front ▸ List.mem_cons_of_mem _ member)
    · rw [← took.arrived, Traffic.arrived, Traffic.arrived, front]
      show (later.traffic.delivering site.eventQueue parcel broker).delivered site.eventQueue ++
        broker.contents site.eventQueue = _
      rw [Traffic.delivered_delivering_self, List.append_assoc]
      rfl
    · show (broker.contents site.eventQueue).length < _
      rw [front]
      exact Nat.lt_succ_self _
  obtain ⟨final, leads, ⟨attendsFinal, took⟩, nothing⟩ := reached
  exact ⟨final, leads, attendsFinal, took, List.length_eq_zero_iff.mp nothing⟩

/-- Wherever a run stands, the server can take the events that wait and its
workers can make all the calls that they require. -/
theorem events_can_be_handled (lawful : env.json.Lawful) {trace : List Action}
    (run : (machine env site).Run (Addressed site) trace state)
    (alive : state.parties.server.fault = none)
    (setup : site.serverSetup.length ≤ state.traffic.handled (.receive .server))
    (named : site.eventQueue ≠ []) (manageable : Manageable env site state) :
    ∃ more final, (machine env site).Leads Handling state final ∧
      (machine env site).Run (Addressed site) (trace ++ more) final ∧
        (takings env site (trace ++ more)).map Prod.fst =
          state.traffic.arrived site.eventQueue ∧
        final.parties.server.handlerCalls.Perm
          ((takings env site (trace ++ more)).flatMap (requires env)) ∧
        Server.Registered final.parties.tables final.parties.server := by
  have attends : Attends env site state := ⟨⟨_, run⟩, alive, setup⟩
  obtain ⟨took, toTook, attendsTook, hasTaken, nothing⟩ := attends.takeAll lawful named manageable
  obtain ⟨final, toFinal, attendsFinal, _, sameTraffic, idle⟩ :=
    attendsTook.workAll lawful hasTaken.manageable.workers
  have leads := toTook.trans (toFinal.weaken handling_of_serving)
  obtain ⟨more, runFinal⟩ := (leads.weaken addressed_of_handling).run run
  have once := handlesOnce_of_run lawful runFinal
  refine ⟨more, final, leads, runFinal, ?_, ?_, once.registered⟩
  · rw [once.delivered, sameTraffic, ← hasTaken.arrived, Traffic.arrived, nothing,
      List.append_nil]
  · obtain ⟨fallen, accounted, _, noneFallen⟩ := once.handled
    have nothingDue : final.parties.server.handlersDue = [] := by
      rw [Server.State.handlersDue, idle]
      rfl
    rw [noneFallen attendsFinal.alive, nothingDue, List.append_nil, List.append_nil] at accounted
    exact accounted

/-- A test for a server of the example site with an event to take. -/
def eventWaits (state : State) : Bool :=
  state.parties.server.fault.isNone &&
    decide (exampleNames.site.serverSetup.length ≤ state.traffic.handled (.receive .server)) &&
      state.parties.server.tasks.isEmpty &&
        (state.traffic.broker.contents (ascii "events")).all fun parcel =>
          match onEventMessage ⟨codec, false⟩ state.parties.server.server parcel.message.body with
          | .ok tasks => tasks.all fun task =>
              decide (Serviceable ⟨codec, false⟩ state.parties.server.server task)
          | .error _ => true

theorem manageable_of_eventWaits (waits : eventWaits state = true) :
    state.parties.server.fault = none ∧
      exampleNames.site.serverSetup.length ≤ state.traffic.handled (.receive .server) ∧
        Manageable ⟨codec, false⟩ exampleNames.site state := by
  obtain ⟨present, serviceable⟩ := Bool.and_eq_true_iff.mp waits
  simp only [Bool.and_eq_true, Option.isNone_iff_eq_none, decide_eq_true_eq,
    List.isEmpty_iff] at present
  obtain ⟨⟨alive, setup⟩, idle⟩ := present
  refine ⟨alive, setup, ?_, ?_⟩
  · rw [idle]
    exact nofun
  · intro parcel member tasks received task isTask
    have all := List.all_eq_true.mp serviceable parcel member
    rw [received] at all
    exact of_decide_eq_true (List.all_eq_true.mp all task isTask)

theorem events_can_be_handled_example :
    ∃ state final, (machine ⟨codec, false⟩ exampleNames.site).Run (Addressed exampleNames.site)
        exampleWaitingEvent state ∧
      state.traffic.broker.contents (ascii "events") ≠ [] ∧
        (machine ⟨codec, false⟩ exampleNames.site).Leads Handling state final := by
  have passed : ((machine ⟨codec, false⟩ exampleNames.site).execWhile addressed
      exampleWaitingEvent (machine ⟨codec, false⟩ exampleNames.site).init).any (fun state =>
        eventWaits state && !(state.traffic.broker.contents (ascii "events")).isEmpty) = true := by
    decide +kernel
  obtain ⟨state, run, passed⟩ := Machine.Run.of_execWhile_any addressed_sound passed
  obtain ⟨waits, some⟩ := Bool.and_eq_true_iff.mp passed
  obtain ⟨alive, setup, manageable⟩ := manageable_of_eventWaits waits
  obtain ⟨_, final, leads, _⟩ :=
    events_can_be_handled codec_lawful run alive setup (by decide) manageable
  refine ⟨state, final, run, ?_, leads⟩
  simpa using some

end Handling

end Deployment

end Ccmqsrv
