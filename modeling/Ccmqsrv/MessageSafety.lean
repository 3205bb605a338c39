import Ccmqsrv.DeploymentRefinement
import Ccmqsrv.Factories
import Ccmqsrv.ProcessSurvival

/-!
# What clients send can be read

Each event in the queue of the server has a type and data, and each request in
its queue can be decoded.  So no message ends the server, and a careful run of a
site is careful as a run of the network.
-/

namespace Ccmqsrv

open Foundations

namespace Deployment

variable {env : Env} {site : Site} {state after : State} {action : Action} {parcel : Parcel}

section Events

/-- The text of an event is read back, but for numbers that are not finite. -/
theorem parse_of_eventText (lawful : env.json.Lawful) {evtType body : Str} {eventData : Json}
    (wellFormed : eventData.WellFormed)
    (dumped : jsonDump env (.array [.string evtType, eventData]) = .ok body) :
    env.json.parse (cString body) = some (.array [.string evtType, eventData.scrub]) := by
  have document : Json.WellFormed (.array [.string evtType, eventData]) := by
    unfold Json.WellFormed at *
    simpa using wellFormed
  have dumpedText := jsonDump_eq_ok.mp dumped
  rw [cString_eq_self (lawful.dump_noZero _ _ dumpedText), lawful.parse_of_dump document dumpedText,
    Json.scrub_array]
  rfl

/-- What the queue for events holds was published as an event. -/
theorem event_of_arrived (settled : Settled site state) (behaved : Behaved env site state.parties)
    (came : parcel ∈ state.traffic.arrived site.eventQueue) :
    ∃ index evtType eventData, eventData.WellFormed ∧
      jsonDump env (.array [.string evtType, eventData]) = .ok parcel.message.body ∧
        .publish site.eventExchange parcel.routingKey parcel.message ∈
          (state.parties.clients index).commands := by
  obtain ⟨posted, holds⟩ := holds_of_arrived settled behaved came
  obtain ⟨isEvent, ⟨index, isClient⟩, _⟩ :=
    holds.of_admits (admits_eventQueue (holds.named))
  cases posted with
  | @command other exchange routingKey message commanded =>
      cases isClient
      have isEvent : exchange = site.eventExchange := isEvent
      subst isEvent
      obtain ⟨before, later, split⟩ := List.append_of_mem commanded
      rcases (behaved.proper index).commands before _ later split with
        ⟨_, _, _, evtType, eventData, wellFormed, dumped⟩ | ⟨isRpc, _⟩
      · exact ⟨index, evtType, eventData, wellFormed, dumped, commanded⟩
      · exact absurd isRpc.symm site.exchangesApart
  | envelope published => cases isClient

theorem onEventMessage_of_arrived (lawful : env.json.Lawful) {evtType : Str} {eventData : Json}
    {body : Str} (server : MessageQueueServer) (wellFormed : eventData.WellFormed)
    (dumped : jsonDump env (.array [.string evtType, eventData]) = .ok body) :
    onEventMessage env server body = .ok ((handlersAt server evtType).keys.map fun cbId =>
      .event evtType cbId (parseJsonElement eventData.scrub)) :=
  onEventMessage_eq_ok.mpr
    ⟨_, evtType, eventData.scrub, parse_of_eventText lawful wellFormed dumped, rfl, rfl, rfl⟩

/-- The front message of the queue for events has become workers: it is an event
that a client has published, and there is one worker for each handler of its
type, with the data as the handlers get them. -/
structure WorkersStarted (env : Env) (site : Site) (state after : State) (parcel : Parcel)
    (evtType : Str) (eventData : Json) : Prop where
  front : state.traffic.broker.contents site.eventQueue =
    parcel :: after.traffic.broker.contents site.eventQueue
  published : ∃ index, .publish site.eventExchange parcel.routingKey parcel.message ∈
    (state.parties.clients index).commands
  text : jsonDump env (.array [.string evtType, eventData]) = .ok parcel.message.body
  server : after.parties.server = { state.parties.server with
    tasks := ((handlersAt state.parties.server.server evtType).keys.map fun cbId =>
      Task.event evtType cbId (parseJsonElement eventData.scrub)) ++ state.parties.server.tasks }

private theorem workersStarted (lawful : env.json.Lawful) (sound : Sound env site state)
    (stepped : step env site state .event = some after) :
    ∃ parcel evtType eventData, WorkersStarted env site state after parcel evtType eventData := by
  cases step_effect stepped with
  | @event consumer parcel tag broker server connection queue delivers moved =>
      have came := arrived_of_delivers delivers
      rw [queue] at came
      obtain ⟨index, evtType, eventData, wellFormed, dumped, commanded⟩ :=
        event_of_arrived sound.settled sound.behaved came
      have received := onEventMessage_of_arrived lawful state.parties.server.server wellFormed dumped
      refine ⟨parcel, evtType, eventData, ?_, ⟨index, commanded⟩, dumped, ?_⟩
      · rw [← queue]
        exact delivers.front
      · cases (Server.step_effect moved).2 with
        | eventMessage accepted =>
            rw [received] at accepted
            cases accepted
            rfl
        | eventMessageFault failed =>
            rw [received] at failed
            cases failed

/-- Each message that comes from the queue for events starts a worker for each
handler of its type, and does not end the server. -/
theorem events_start_workers (lawful : env.json.Lawful) {trace : List Action}
    (run : (machine env site).Run (Addressed site) trace state)
    (stepped : step env site state .event = some after) :
    ∃ parcel evtType eventData, WorkersStarted env site state after parcel evtType eventData :=
  workersStarted lawful (sound_of_run lawful run) stepped

/-- An event of the example site reaches the server. -/
theorem events_start_workers_example :
    ∃ state after parcel evtType eventData,
      (machine ⟨codec, false⟩ exampleNames.site).Run (Addressed exampleNames.site)
          (exampleSetup ++ examplePublish ++ [.handle (.send (.client 0))]) state ∧
        step ⟨codec, false⟩ exampleNames.site state .event = some after ∧
          WorkersStarted ⟨codec, false⟩ exampleNames.site state after parcel evtType
            eventData := by
  have passed : ((machine ⟨codec, false⟩ exampleNames.site).execWhile addressed
      (exampleSetup ++ examplePublish ++ [.handle (.send (.client 0))])
      (machine ⟨codec, false⟩ exampleNames.site).init).any (fun state =>
        (step ⟨codec, false⟩ exampleNames.site state .event).isSome) = true := by
    decide +kernel
  obtain ⟨state, run, received⟩ := Machine.Run.of_execWhile_any addressed_sound passed
  obtain ⟨after, stepped⟩ := Option.isSome_iff_exists.mp received
  obtain ⟨parcel, evtType, eventData, started⟩ := events_start_workers codec_lawful run stepped
  exact ⟨state, after, parcel, evtType, eventData, run, stepped, started⟩

end Events

section Requests

/-- A request that a client has sent is read as its call. -/
theorem isRequest_of_sent (lawful : env.json.Lawful) (sound : Sound env site state) {index : Nat}
    {call : Client.Call} {message : Message}
    (sent : .sent call message ∈ (state.parties.clients index).history) :
    IsRequest env message call.meth (call.args.map Json.scrub) [] :=
  Network.isRequest_of_sent lawful sound.reachable
    ((sound.behaved.proper index).formed call message sent) sent

/-- The workers of a site are those of events and of requests. -/
theorem Sound.workers (sound : Sound env site state) (lawful : env.json.Lawful) {task : Task}
    (member : task ∈ state.parties.server.tasks) : WorkerOf env state.parties.tables task :=
  Network.workerOf_of_reachable lawful sound.reachable
    (fun index => (sound.behaved.proper index).formed) member

end Requests

/-- The step ends the server. -/
def Ends (state : State) : Action → Prop
  | .server (.work index) => ∃ task, state.parties.server.tasks[index]? = some task ∧
      ¬ Survives state.parties.server.server task
  | .server (.registerEventHandler _ _) => state.parties.server.server.evtCbId = intMax
  | _ => False

/-- The site is used as described, no step ends the server, and no call erases
its entry while the event loop of its client is handling a reply to it. -/
structure Careful (site : Site) (state : State) (action : Action) : Prop where
  addressed : Addressed site state action
  keeps : ¬ Ends state action
  atRest : ∀ index clientAction, action = .client index clientAction →
    Client.ErasedAtRest (state.parties.clients index) clientAction

section Clients

/-- What reaches a client can be decoded. -/
theorem decodes_of_arrived (lawful : env.json.Lawful) (sound : Sound env site state)
    {index : Nat} (came : parcel ∈ state.traffic.arrived (site.callbackQueue index)) :
    ∃ result, decodeResponse env (responseOf parcel).body = .ok result := by
  obtain ⟨envelope, published, _, same⟩ := envelope_of_arrived sound.settled sound.behaved came
  have linked := Network.linked_of_reachable sound.reachable
  obtain ⟨asked, _, replies⟩ := linked.attributed.published envelope published
  rw [← same]
  exact (replies.sent lawful).2.2

/-- A careful step of the site is careful in the network. -/
private theorem Careful.network {networkAction : Network.Action}
    (careful : Careful site state action) (lawful : env.json.Lawful)
    (settled : Settled site state) (behaved : Behaved env site state.parties)
    (mirrors : Mirrors site state action networkAction) :
    Network.Careful env state.parties networkAction := by
  obtain ⟨addressed, keeps, atRest⟩ := careful
  cases mirrors with
  | client =>
      refine ⟨?_, id, ?_⟩
      · intro _ _ same
        cases same
        exact addressed.any
      · intro _ _ same
        cases same
        exact atRest _ _ rfl
  | @server serverAction notMessage =>
      refine ⟨nofun, ?_, nofun⟩
      intro ends
      match serverAction with
      | .work _ => exact keeps ends
      | .registerEventHandler _ _ => exact keeps ends
      | .eventMessage _ => cases notMessage
  | reply => exact ⟨nofun, id, nofun⟩
  | request => exact ⟨nofun, id, nofun⟩
  | event came =>
      refine ⟨nofun, ?_, nofun⟩
      intro noEvent
      obtain ⟨_, evtType, eventData, wellFormed, dumped, _⟩ :=
        event_of_arrived settled behaved came
      exact noEvent (exists_onEventMessage_iff.mp
        ⟨_, onEventMessage_of_arrived lawful state.parties.server.server wellFormed dumped⟩)

/-- In a careful run the server lives and the event loops find what they need. -/
theorem attentive_of_run (lawful : env.json.Lawful) {trace : List Action}
    (run : (machine env site).Run (Careful site) trace state) :
    state.parties.server.fault = none ∧
      ∀ index, Client.Attentive env (state.parties.clients index) := by
  obtain ⟨networkTrace, networkRun⟩ := networkRun_of_guarded lawful Careful.addressed
    (fun settled behaved careful mirrors => careful.network lawful settled behaved mirrors) run
  exact Network.attentive_of_run lawful (networkRun.weaken And.right)

/-- `Careful`, computed for clients of the example site. -/
def careful (state : State) (action : Action) : Bool :=
  addressed state action &&
    match action with
    | .server (.work index) => state.parties.server.tasks[index]?.all fun task =>
        decide (Survives state.parties.server.server task)
    | .server (.registerEventHandler _ _) => state.parties.server.server.evtCbId != intMax
    | .client index action => Network.erasedAtRest state.parties (.client index action)
    | _ => true

theorem careful_sound (state : State) (action : Action) (passed : careful state action = true) :
    Careful exampleNames.site state action := by
  obtain ⟨isAddressed, rest⟩ := Bool.and_eq_true_iff.mp passed
  refine ⟨addressed_sound state action isAddressed, ?_, ?_⟩
  · intro ends
    match action with
    | .server (.work index) =>
        obtain ⟨task, found, perishes⟩ := ends
        have survive : (state.parties.server.tasks[index]?.all fun task =>
            decide (Survives state.parties.server.server task)) = true := rest
        rw [found] at survive
        exact perishes (of_decide_eq_true survive)
    | .server (.registerEventHandler _ _) => exact bne_iff_ne.mp rest ends
  · intro index clientAction same
    subst same
    exact Network.erasedAtRest_sound state.parties (.client index clientAction) rest index
      clientAction rfl

end Clients

end Deployment

end Ccmqsrv
