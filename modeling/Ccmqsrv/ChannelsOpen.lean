import Ccmqsrv.DeploymentRefinement
import Ccmqsrv.Factories

/-!
# The broker refuses nothing

A refused request closes its channel, and neither clients nor server open a
channel again.  No request of a site is refused: a queue is declared as one
thing only, what is bound or consumed was declared before on the same
connection, the exchanges are there before a client uses them, and the server
acknowledges each delivery once.
-/

namespace Ccmqsrv

open Foundations

namespace Deployment

variable {env : Env} {site : Site} {state after : State} {action : Action} {channel : Channel}

def ackTag : ChannelRequest → Option Nat
  | .ack tag => some tag
  | _ => none

/-- The broker waits for the acknowledgements that are on their way. -/
def Acknowledges (site : Site) (state : State) : Prop :=
  state.traffic.broker.unacked .server =
    ((logs site state (.receive .server)).drop
      (state.traffic.handled (.receive .server))).filterMap ackTag

section Acknowledges

private theorem ackTag_setup : site.serverSetup.filterMap ackTag = [] := by
  unfold Site.serverSetup Site.callsSetup Site.eventsSetup
  split <;> split <;> rfl

/-- Acknowledgements are given on one channel. -/
private theorem channel_of_ack {tag : Nat} (member : .ack tag ∈ logs site state channel) :
    channel = .receive .server := by
  cases channel with
  | receive connection =>
      cases connection with
      | client index =>
          rw [logs] at member
          split at member <;> simp [Site.clientSetup] at member
      | server => rfl
  | send connection =>
      cases connection with
      | client index =>
          obtain ⟨command, _, same⟩ := List.mem_map.mp member
          cases command <;> cases same
      | server =>
          obtain ⟨envelope, _, same⟩ := List.mem_map.mp member
          cases same

private theorem drop_next {requests : List ChannelRequest} {handled : Nat}
    {request : ChannelRequest} (next : requests[handled]? = some request) :
    requests.drop handled = request :: requests.drop (handled + 1) := by
  obtain ⟨within, same⟩ := List.getElem?_eq_some_iff.mp next
  rw [List.drop_eq_getElem_cons within, same]

private theorem Acknowledges.handle {request : ChannelRequest}
    {broker : Broker Connection Str Parcel} (acknowledges : Acknowledges site state)
    (next : (logs site state channel)[state.traffic.handled channel]? = some request)
    (handled : state.traffic.broker.Handled site.broker.accepts channel.connection request broker) :
    Acknowledges site { state with traffic := state.traffic.handling channel broker } := by
  unfold Acknowledges at acknowledges ⊢
  show broker.unacked .server = (List.drop ((state.traffic.handling channel broker).handled
    (.receive .server)) (logs site state (.receive .server))).filterMap ackTag
  by_cases isAcks : channel = .receive .server
  · subst isAcks
    rw [drop_next next] at acknowledges
    rw [Traffic.handled_handling_self]
    cases request with
    | ack tag =>
        rw [handled.unacked_ack]
        show Function.update _ Connection.server _ _ = _
        rw [Function.update_self, show Channel.connection (.receive .server) = .server from rfl,
          acknowledges]
        exact List.erase_cons_head tag _
    | _ =>
        rw [handled.unacked_eq nofun]
        exact acknowledges
  · rw [Traffic.handled_handling_of_ne _ _ (Ne.symm isAcks), handled.unacked_eq]
    · exact acknowledges
    · intro tag isAck
      exact isAcks (channel_of_ack (isAck ▸ List.mem_of_getElem? next))

/-- What is consumed without acknowledgements, and what is not. -/
theorem consumes_of_mem (sound : Sound env site state) {consumer : Consumer Connection Str}
    (consuming : consumer ∈ state.traffic.broker.consumers) :
    Consumes site consumer.connection consumer.queue consumer.noack := by
  obtain ⟨channel, own, asked⟩ := sound.settled.consumers consumer consuming
  have isOrderly := orderly sound.behaved channel _ asked
  rw [own] at isOrderly
  cases isOrderly with
  | consume consumes => exact consumes

private theorem Consumes.noack_rpcQueue {noack : Bool}
    (consumes : Consumes site .server site.rpcQueue noack) : noack = false := by
  generalize isRpc : site.rpcQueue = queue at consumes
  cases consumes with
  | calls named => rfl
  | events named =>
      by_cases noCalls : site.rpcQueue = []
      · exact absurd (isRpc.symm.trans noCalls) named
      · exact absurd isRpc (site.queuesApart noCalls)

theorem Consumes.noack_eventQueue {noack : Bool}
    (consumes : Consumes site .server site.eventQueue noack) : noack = true := by
  generalize isEvent : site.eventQueue = queue at consumes
  cases consumes with
  | calls named => exact absurd isEvent.symm (site.queuesApart named)
  | events named => rfl

theorem Acknowledges.next (acknowledges : Acknowledges site state) (sound : Sound env site state)
    (effect : Effect env site state action after) : Acknowledges site after := by
  cases effect with
  | handle next handled => exact acknowledges.handle next handled
  | @reply index consumer parcel tag broker client connection queue delivers moved =>
      show broker.unacked .server = _
      rw [delivers.unacked, connection, Function.update_of_ne Connection.noConfusion]
      exact acknowledges
  | @request consumer parcel tag broker server connection queue delivers moved =>
      have consumes := consumes_of_mem sound delivers.consuming
      rw [connection, queue] at consumes
      show broker.unacked .server = (List.drop _ (site.serverSetup ++ List.map _ _)).filterMap _
      have grown : site.serverSetup ++ (state.acks ++ [tag]).map BrokerRequest.ack =
          logs site state (.receive .server) ++ [.ack tag] := by
        rw [List.map_append, ← List.append_assoc]
        rfl
      have within := sound.settled.handled_le (.receive .server)
      rw [grown, delivers.unacked, connection, consumes.noack_rpcQueue, Function.update_self]
      refine Eq.trans ?_ (congrArg (List.filterMap ackTag)
        (List.drop_append_of_le_length within).symm)
      rw [List.filterMap_append, ← acknowledges]
      rfl
  | @event consumer parcel tag broker server connection queue delivers moved =>
      have consumes := consumes_of_mem sound delivers.consuming
      rw [connection, queue] at consumes
      show broker.unacked .server = _
      rw [delivers.unacked, connection, consumes.noack_eventQueue, Function.update_self]
      exact acknowledges
  | _ => exact acknowledges

end Acknowledges

section Welcome

/-- A queue is declared as one thing. -/
private theorem Declares.unique {queue : Str} {kind other : QueueKind Connection}
    (declares : Declares site queue kind) (again : Declares site queue other) : other = kind := by
  cases declares with
  | @callback index isMade =>
      generalize isCallback : site.callbackQueue index = queue at again
      cases again with
      | callback alsoMade => rw [site.callbackInjective isCallback]
      | calls named => exact absurd isCallback (site.callbackNotRpc index)
      | events admits => exact absurd isCallback.symm (admits.2.2.1 index)
  | calls named =>
      generalize isRpc : site.rpcQueue = queue at again
      cases again with
      | callback isMade => exact absurd isRpc.symm (site.callbackNotRpc _)
      | calls named => rfl
      | events admits => exact absurd isRpc.symm admits.2.1
  | events admits =>
      cases again with
      | callback isMade => exact absurd rfl (admits.2.2.1 _)
      | calls named => exact absurd rfl admits.2.1
      | events _ => rfl

theorem Declares.permitted {queue : Str} {kind : QueueKind Connection}
    (declares : Declares site queue kind) : site.broker.names.permits queue := by
  cases declares with
  | callback isMade => exact site.callbackPermitted _ isMade
  | calls named => exact site.rpcPermitted named
  | events admits => exact admits.2.2.2

theorem Binds.fits {exchange queue : Str} (binds : Binds site exchange queue) :
    site.broker.names.fits queue := by
  cases binds with
  | callback isMade =>
      exact site.broker.names.fits_of_permits (site.callbackPermitted _ isMade)
  | calls named => exact site.broker.names.fits_of_permits (site.rpcPermitted named)
  | events admits => exact site.broker.names.fits_of_permits admits.2.2.2

/-- What a request on `recv_channel` needs was declared before on the channel. -/
def Ready (connection : Connection) (before : List ChannelRequest) : ChannelRequest → Prop
  | .bindQueue exchange queue _ => .declareExchange exchange ∈ before ∧
      ∃ kind, .declareQueue queue kind ∈ before ∧ kind.owner.all (· = connection) = true
  | .consume queue _ =>
      ∃ kind, .declareQueue queue kind ∈ before ∧ kind.owner.all (· = connection) = true
  | _ => True

private theorem ready_clientSetup (index : Nat) :
    Preceded (Ready (.client index)) (site.clientSetup index) := by
  have owned : (exclusive (.client index)).owner.all (· = Connection.client index) = true := by
    simp [exclusive]
  have exchanges : Preceded (Ready (.client index)) ((site.clientSetup index).take 3) :=
    ((Preceded.nil.append_singleton trivial).append_singleton trivial).append_singleton trivial
  refine Preceded.append_singleton (Preceded.append_singleton exchanges ?_) ?_
  · exact ⟨List.mem_cons_self, _, by simp [Site.clientSetup], owned⟩
  · exact ⟨_, by simp [Site.clientSetup], owned⟩

private theorem ready_append {connection : Connection} {before : List ChannelRequest}
    (ready : Preceded (Ready connection) before) {exchange queue : Str}
    {kind : QueueKind Connection} {noack : Bool} (known : .declareExchange exchange ∈ before)
    (owned : kind.owner.all (· = connection) = true) :
    Preceded (Ready connection) (before ++ [.declareQueue queue kind,
      .bindQueue exchange queue queue, .consume queue noack]) := by
  have declared : Preceded (Ready connection) (before ++ [.declareQueue queue kind]) :=
    ready.append_singleton trivial
  have bound : Preceded (Ready connection)
      (before ++ [.declareQueue queue kind] ++ [.bindQueue exchange queue queue]) :=
    declared.append_singleton ⟨List.mem_append_left _ known, kind, by simp, owned⟩
  have consumed : Preceded (Ready connection) (before ++ [.declareQueue queue kind] ++
      [.bindQueue exchange queue queue] ++ [.consume queue noack]) :=
    bound.append_singleton ⟨kind, by simp, owned⟩
  simpa only [List.append_assoc, List.cons_append, List.nil_append] using consumed

private theorem ready_serverSetup : Preceded (Ready .server) site.serverSetup := by
  have exchanges : Preceded (Ready .server) [.declareExchange site.rpcExchange,
      .declareExchange site.eventExchange, .setQos 1] :=
    ((Preceded.nil.append_singleton trivial).append_singleton trivial).append_singleton trivial
  have calls : Preceded (Ready .server) ([.declareExchange site.rpcExchange,
      .declareExchange site.eventExchange, .setQos 1] ++ site.callsSetup) := by
    unfold Site.callsSetup
    split
    · exact exchanges
    · exact ready_append exchanges List.mem_cons_self (by simp [exclusive])
  unfold Site.serverSetup
  generalize isCalls : [BrokerRequest.declareExchange site.rpcExchange,
    .declareExchange site.eventExchange, .setQos 1] ++ site.callsSetup = setup at calls
  have known : .declareExchange site.eventExchange ∈ setup := by
    rw [← isCalls]
    simp
  unfold Site.eventsSetup
  split
  · rw [List.append_nil]
    exact calls
  · exact ready_append calls known rfl

private theorem ready_receive (state : State) (connection : Connection) :
    Preceded (Ready connection) (logs site state (.receive connection)) := by
  cases connection with
  | client index =>
      rw [logs]
      split
      · exact ready_clientSetup index
      · exact Preceded.nil
  | server =>
      show Preceded _ (site.serverSetup ++ state.acks.map _)
      induction state.acks using List.reverseRecOn with
      | nil =>
          rw [List.map_nil, List.append_nil]
          exact ready_serverSetup
      | append_singleton acks last inductionHypothesis =>
          rw [List.map_append, ← List.append_assoc]
          exact inductionHypothesis.append_singleton trivial

private theorem opens_of_kind {broker : Broker Connection Str Parcel} {connection : Connection}
    {queue : Str} {kind : QueueKind Connection} (declared : broker.kind queue = some kind)
    (owned : kind.owner.all (· = connection) = true) : broker.opens connection queue = true := by
  rw [Broker.opens, declared]
  exact owned

private theorem welcomes_declare (sound : Sound env site state) {queue : Str}
    {kind : QueueKind Connection} (asked : .declareQueue queue kind ∈ logs site state channel) :
    state.traffic.broker.Welcomes site.broker.names channel.connection
      (.declareQueue queue kind) := by
  have isOrderly := orderly sound.behaved channel _ asked
  cases isOrderly with
  | declareQueue declares owned =>
      refine ⟨declares.permitted, owned, ?_⟩
      intro other known
      obtain ⟨source, askedBefore⟩ := sound.settled.queues queue other known
      have wasOrderly := orderly sound.behaved source _ askedBefore
      cases wasOrderly with
      | declareQueue before ownedBefore => exact declares.unique before

private theorem welcomes_receive (sound : Sound env site state)
    (acknowledges : Acknowledges site state) {connection : Connection} {request : ChannelRequest}
    (next : (logs site state (.receive connection))[state.traffic.handled
      (.receive connection)]? = some request) :
    state.traffic.broker.Welcomes site.broker.names connection request := by
  have asked := List.mem_of_getElem? next
  have ready := (ready_receive state connection).of_getElem? next
  have done := sound.settled.done (.receive connection)
  have isOrderly := orderly sound.behaved (.receive connection) _ asked
  cases request with
  | declareExchange exchange =>
      cases isOrderly with
      | declareExchange known =>
          rcases known with rfl | rfl
          · exact site.rpcExchangePermitted
          · exact site.eventExchangePermitted
  | declareQueue queue kind => exact welcomes_declare sound asked
  | bindQueue exchange queue key =>
      obtain ⟨known, kind, declared, owned⟩ := ready
      cases isOrderly with
      | bindQueue binds =>
          exact ⟨binds.fits, done _ known, opens_of_kind (done _ declared) owned⟩
  | setQos prefetch => trivial
  | consume queue noack =>
      obtain ⟨kind, declared, owned⟩ := ready
      exact opens_of_kind (done _ declared) owned
  | publish exchange key message => cases (mem_logs_publish asked).1
  | ack tag =>
      have isServer := channel_of_ack asked
      cases isServer
      have waits : state.traffic.broker.unacked .server = _ := acknowledges
      rw [drop_next next] at waits
      show tag ∈ state.traffic.broker.unacked .server
      rw [waits]
      exact List.mem_cons_self

private theorem welcomes_command (sound : Sound env site state) {index : Nat}
    {request : ChannelRequest}
    (next : (logs site state (.send (.client index)))[state.traffic.handled
      (.send (.client index))]? = some request) :
    state.traffic.broker.Welcomes site.broker.names (.client index) request := by
  have asked := List.mem_of_getElem? next
  rw [logs, List.getElem?_map] at next
  obtain ⟨command, found, rfl⟩ := Option.map_eq_some_iff.mp next
  have isRunning := sound.started.running_of_command (List.mem_of_getElem? found)
  have rpcKnown : site.rpcExchange ∈ state.traffic.broker.exchanges :=
    sound.started.done sound.settled isRunning List.mem_cons_self
  have eventKnown : site.eventExchange ∈ state.traffic.broker.exchanges :=
    sound.started.done sound.settled isRunning (List.mem_cons_of_mem _ List.mem_cons_self)
  have proper := (sound.behaved.proper index).commands.of_getElem? found
  cases command with
  | declareQueue queue => exact welcomes_declare sound asked
  | bindQueue exchange queue routingKey =>
      obtain ⟨rfl, rfl, admits, declared⟩ := proper
      have inLog : .declareQueue queue durable ∈ (logs site state (.send (.client index))).take
          (state.traffic.handled (.send (.client index))) := by
        show _ ∈ ((state.parties.clients index).commands.map (commandRequest index)).take _
        rw [← List.map_take]
        exact List.mem_map_of_mem declared
      exact ⟨(Binds.events admits).fits, eventKnown,
        opens_of_kind (sound.settled.done _ _ inLog) rfl⟩
  | publish exchange routingKey message =>
      rcases proper with ⟨rfl, admits, _⟩ | ⟨rfl, asks⟩
      · refine ⟨(Binds.events admits).fits, fun name isName => ?_⟩
        have same := (exchangeOf_named site.eventExchangeNamed).symm.trans isName
        cases same
        exact eventKnown
      · refine ⟨asks.2, fun name isName => ?_⟩
        have same := (exchangeOf_named site.rpcExchangeNamed).symm.trans isName
        cases same
        exact rpcKnown

/-- No request is refused when its turn comes. -/
theorem welcomes_next (sound : Sound env site state) (acknowledges : Acknowledges site state)
    {request : ChannelRequest}
    (next : (logs site state channel)[state.traffic.handled channel]? = some request) :
    state.traffic.broker.Welcomes site.broker.names channel.connection request := by
  cases channel with
  | receive connection => exact welcomes_receive sound acknowledges next
  | send connection =>
      cases connection with
      | client index => exact welcomes_command sound next
      | server =>
          obtain ⟨envelope, published, rfl⟩ := List.mem_map.mp (List.mem_of_getElem? next)
          obtain ⟨index, isRunning, toClient⟩ := sound.replies envelope published
          refine ⟨?_, nofun⟩
          rw [replyParcel, toClient]
          exact (Binds.callback (sound.started.made index isRunning)).fits

end Welcome

/-- The channels of a site stay open, and its acknowledgements are expected. -/
structure Open (site : Site) (state : State) : Prop where
  acknowledges : Acknowledges site state
  channels : ∀ channel, state.closed channel = false

theorem Open.next (isOpen : Open site state) (sound : Sound env site state)
    (effect : Effect env site state action after) : Open site after := by
  refine ⟨isOpen.acknowledges.next sound effect, ?_⟩
  cases effect with
  | refuse next refused =>
      have welcomed := site.broker.welcomed (welcomes_next sound isOpen.acknowledges next)
      rw [refused] at welcomed
      cases welcomed
  | _ => exact isOpen.channels

theorem open_of_run (lawful : env.json.Lawful) {trace : List Action}
    (run : (machine env site).Run (Addressed site) trace state) : Open site state := by
  refine run.invariant (fun _ state => Open site state) ?_ ?_
  · refine ⟨?_, fun _ => rfl⟩
    show [] = (List.drop 0 (site.serverSetup ++ [])).filterMap ackTag
    rw [List.append_nil, List.drop_zero, ackTag_setup]
  · intro _ _ _ _ earlier isOpen _ stepped
    exact isOpen.next (sound_of_run lawful earlier) (step_effect stepped)

/-- However clients, server and broker take their steps, the broker handles
every request that was given, and closes no channel. -/
theorem no_request_refused (lawful : env.json.Lawful) {trace : List Action}
    (run : (machine env site).Run (Addressed site) trace state) (channel : Channel) :
    state.closed channel = false ∧
      ∀ request, (logs site state channel)[state.traffic.handled channel]? = some request →
        ∃ broker, site.broker.handle state.traffic.broker channel.connection request =
          some broker := by
  have isOpen := open_of_run lawful run
  refine ⟨isOpen.channels channel, ?_⟩
  intro request next
  exact Option.isSome_iff_exists.mp (site.broker.welcomed
    (welcomes_next (sound_of_run lawful run) isOpen.acknowledges next))

theorem no_request_refused_exampleRun :
    ∃ state, (machine ⟨codec, false⟩ exampleNames.site).Run (Addressed exampleNames.site)
      exampleRun state ∧ state.closed (.send (.client 0)) = false := by
  obtain ⟨state, run, _⟩ := exampleRun_reaches
  exact ⟨state, run, (no_request_refused codec_lawful run (.send (.client 0))).1⟩

end Deployment

end Ccmqsrv
