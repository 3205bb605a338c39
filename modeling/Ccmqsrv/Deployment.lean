import Ccmqsrv.ClientCommands
import Ccmqsrv.Foundations.Topic
import Ccmqsrv.Foundations.Traffic
import Ccmqsrv.Network

/-!
# Clients, a server and the broker between them

Each client and the server has one connection to the broker with two channels:
`recv_channel`, on which `run` declares, binds and consumes, and
`send_channel`.  The broker handles the requests of a channel in the order they
were given, the channels in any order, and delivers the messages of a queue in
the order they came.  A message is delivered when the event loop of its
consumer is free.

The broker is a parameter of the site, known only by its laws, and used by
nobody else.  A channel stays open unless the broker refuses a request on it.
Connections are not lost, clients are not released, and nothing restarts.
-/

namespace Ccmqsrv

open Foundations

theorem Server.published_grows {env : Env} {state after : Server.State} {action : Server.Action}
    (stepped : Server.step env state action = some after) :
    state.published <+: after.published := by
  cases (Server.step_effect stepped).2 with
  | work found worked => exact List.prefix_append _ _
  | _ => exact List.prefix_refl _

/-- How topic exchanges read routing keys. -/
def topics : TopicSyntax UInt8 where
  dot := 0x2e
  star := ascii "*"
  hash := ascii "#"

namespace Deployment

inductive Connection where
  | client (index : Nat)
  | server
  deriving DecidableEq

/-- A message on its way through the broker. -/
structure Parcel where
  /-- The connection it was published on, for the statements about runs. -/
  origin : Connection
  exchange : Str
  routingKey : Str
  message : Message
  deriving DecidableEq

end Deployment

/-- A broker with topic exchanges.  A key matches itself, and a pattern without
wildcards matches nothing else. -/
structure TopicBroker extends
    BrokerService Deployment.Connection Str Deployment.Parcel where
  accepts_self : ∀ key, accepts key key = true
  eq_of_accepts : ∀ {pattern key}, topics.Plain pattern → accepts pattern key = true →
    pattern = key

/-- The broker, and the names that the clients and the server are made with.
`make_client` and `make_server` leave no exchange and no callback queue without
a name. -/
structure Site where
  broker : TopicBroker
  /-- The clients that there are. -/
  made : Nat → Bool
  rpcExchange : Str
  eventExchange : Str
  callbackQueue : Nat → Str
  /-- `rpc_queue_n` is empty if the server takes no calls. -/
  rpcQueue : Str
  /-- `event_queue_n` is empty if the server takes no events. -/
  eventQueue : Str
  rpcExchangeNamed : rpcExchange ≠ []
  eventExchangeNamed : eventExchange ≠ []
  exchangesApart : rpcExchange ≠ eventExchange
  callbackNamed : ∀ index, callbackQueue index ≠ []
  callbackPlain : ∀ index, topics.Plain (callbackQueue index)
  callbackInjective : Function.Injective callbackQueue
  callbackNotRpc : ∀ index, callbackQueue index ≠ rpcQueue
  callbackNotEvent : ∀ index, callbackQueue index ≠ eventQueue
  queuesApart : rpcQueue ≠ [] → rpcQueue ≠ eventQueue
  rpcExchangePermitted : broker.names.permits rpcExchange
  eventExchangePermitted : broker.names.permits eventExchange
  callbackPermitted : ∀ index, made index = true → broker.names.permits (callbackQueue index)
  rpcPermitted : rpcQueue ≠ [] → broker.names.permits rpcQueue
  eventPermitted : eventQueue ≠ [] → broker.names.permits eventQueue

namespace Deployment

/-- `recv_channel` and `send_channel` of a connection. -/
inductive Channel where
  | receive (connection : Connection)
  | send (connection : Connection)
  deriving DecidableEq

def Channel.connection : Channel → Connection
  | .receive connection => connection
  | .send connection => connection

/-- A request on a channel. -/
abbrev ChannelRequest := BrokerRequest Connection Str Parcel

/-- The exchange without a name is the default exchange. -/
def exchangeOf (name : Str) : Option Str :=
  if name.isEmpty then none else some name

/-- `channel->publish(exchange, routing_key, ...)` -/
def publishRequest (parcel : Parcel) : ChannelRequest :=
  .publish (exchangeOf parcel.exchange) parcel.routingKey parcel

/-- `AMQP::durable` -/
def durable : QueueKind Connection :=
  { durable := true, autodelete := false, owner := none }

/-- `AMQP::exclusive+AMQP::autodelete` -/
def exclusive (connection : Connection) : QueueKind Connection :=
  { durable := false, autodelete := true, owner := some connection }

def commandRequest (index : Nat) : Client.Command → ChannelRequest
  | .declareQueue queue => .declareQueue queue durable
  | .bindQueue exchange queue routingKey => .bindQueue exchange queue routingKey
  | .publish exchange routingKey message =>
      publishRequest { origin := .client index, exchange, routingKey, message }

/-- What `send_reply` publishes. -/
def replyParcel (envelope : Envelope) : Parcel where
  origin := .server
  exchange := []
  routingKey := envelope.routingKey
  message := { body := envelope.body, correlationID := envelope.correlationID, replyTo := [] }

end Deployment

namespace Site

open Deployment

variable (site : Site)

def config (index : Nat) : Client.Config where
  rpcExchange := site.rpcExchange
  callbackQueue := site.callbackQueue index
  eventExchange := site.eventExchange

/-- `MessageQueueClient::run` -/
def clientSetup (index : Nat) : List ChannelRequest :=
  [.declareExchange site.rpcExchange,
    .declareExchange site.eventExchange,
    .declareQueue (site.callbackQueue index) (exclusive (.client index)),
    .bindQueue site.rpcExchange (site.callbackQueue index) (site.callbackQueue index),
    .consume (site.callbackQueue index) true]

/-- The part of `run` for `rpc_queue_n`. -/
def callsSetup : List ChannelRequest :=
  if site.rpcQueue.isEmpty then
    []
  else
    [.declareQueue site.rpcQueue (exclusive .server),
      .bindQueue site.rpcExchange site.rpcQueue site.rpcQueue,
      .consume site.rpcQueue false]

/-- The part of `run` for `event_queue_n`. -/
def eventsSetup : List ChannelRequest :=
  if site.eventQueue.isEmpty then
    []
  else
    [.declareQueue site.eventQueue durable,
      .bindQueue site.eventExchange site.eventQueue site.eventQueue,
      .consume site.eventQueue true]

/-- `MessageQueueServer::run` -/
def serverSetup : List ChannelRequest :=
  [.declareExchange site.rpcExchange, .declareExchange site.eventExchange, .setQos 1] ++
    site.callsSetup ++ site.eventsSetup

/-- The keys that clients may use: a callback queue is for replies only, and a
queue for events is neither a callback queue nor the queue for calls. -/
def usage : Client.Usage where
  asks := fun routingKey => (∀ index, routingKey ≠ site.callbackQueue index) ∧
    site.broker.names.fits routingKey
  admits := fun routingKey => routingKey ≠ [] ∧ routingKey ≠ site.rpcQueue ∧
    (∀ index, routingKey ≠ site.callbackQueue index) ∧ site.broker.names.permits routingKey

end Site

namespace Deployment

structure State where
  parties : Network.State := {}
  traffic : Traffic Channel Connection Str Parcel := {}
  /-- `is_running` of the clients. -/
  running : Nat → Bool := fun _ => false
  /-- The tags that the server has acknowledged. -/
  acks : List Nat := []
  /-- The broker closes a channel when it refuses a request. -/
  closed : Channel → Bool := fun _ => false

inductive Action where
  /-- The broker handles the next request of the channel. -/
  | handle (channel : Channel)
  /-- The constructor of the client returns. -/
  | start (index : Nat)
  | client (index : Nat) (action : Client.Action)
  | server (action : Server.Action)
  /-- A message from its callback queue reaches the client. -/
  | reply (index : Nat)
  /-- A message from `rpc_queue_n` reaches the server. -/
  | request
  /-- A message from `event_queue_n` reaches the server. -/
  | event

/-- The requests given on a channel so far. -/
def logs (site : Site) (state : State) : Channel → List ChannelRequest
  | .receive (.client index) => if site.made index then site.clientSetup index else []
  | .send (.client index) => (state.parties.clients index).commands.map (commandRequest index)
  | .receive .server => site.serverSetup ++ state.acks.map BrokerRequest.ack
  | .send .server => state.parties.server.published.map fun envelope => publishRequest (replyParcel envelope)

def isBind : ChannelRequest → Bool
  | .bindQueue _ _ _ => true
  | _ => false

/-- The number of binds of the channel that the broker has confirmed. -/
def confirmed (site : Site) (state : State) (channel : Channel) : Nat :=
  ((logs site state channel).take (state.traffic.handled channel)).countP isBind

/-- The callback of a bind runs after its confirmation. -/
def granted (site : Site) (state : State) (index : Nat) : Client.Action → Bool
  | .bindSuccess =>
      decide ((logs site state (.send (.client index))).countP isBind <
        confirmed site state (.send (.client index)) +
          (state.parties.clients index).pendingBinds)
  | _ => true

def isMessage : Server.Action → Bool
  | .rpcMessage _ => true
  | .eventMessage _ => true
  | _ => false

/-- What `on_response` reads of a message. -/
def responseOf (parcel : Parcel) : Client.Response where
  correlationID := parcel.message.correlationID
  body := parcel.message.body

def step (env : Env) (site : Site) (state : State) : Action → Option State
  | .handle channel =>
      if state.closed channel then
        none
      else
        match (logs site state channel)[state.traffic.handled channel]? with
        | none => none
        | some request =>
            match site.broker.handle state.traffic.broker channel.connection request with
            | some broker => some { state with traffic := state.traffic.handling channel broker }
            | none => some { state with closed := Function.update state.closed channel true }
  | .start index =>
      if 0 < confirmed site state (.receive (.client index)) then
        some { state with running := Function.update state.running index true }
      else
        none
  | .client index action =>
      if action.isDelivery || action.reuses state.parties.ids || !state.running index ||
          !granted site state index action then
        none
      else do
        let client ← Client.step env (site.config index) (state.parties.clients index) action
        return { state with parties := state.parties.putClient index client }
  | .server action =>
      if isMessage action then
        none
      else do
        let server ← Server.step env state.parties.server action
        return { state with parties := state.parties.putServer server }
  | .reply index => do
      let queue := site.callbackQueue index
      let (parcel, _, broker) ← site.broker.deliver state.traffic.broker (.client index) queue
      let client ← Client.step env (site.config index) (state.parties.clients index)
        (.deliver (responseOf parcel))
      return { state with
        parties := state.parties.putClient index client
        traffic := state.traffic.delivering queue parcel broker }
  | .request => do
      let (parcel, tag, broker) ← site.broker.deliver state.traffic.broker .server site.rpcQueue
      let server ← Server.step env state.parties.server (.rpcMessage parcel.message)
      return { state with
        parties := state.parties.putServer server
        traffic := state.traffic.delivering site.rpcQueue parcel broker
        acks := state.acks ++ [tag] }
  | .event => do
      let (parcel, _, broker) ← site.broker.deliver state.traffic.broker .server site.eventQueue
      let server ← Server.step env state.parties.server (.eventMessage parcel.message.body)
      return { state with
        parties := state.parties.putServer server
        traffic := state.traffic.delivering site.eventQueue parcel broker }

/-- The site under every interleaving of clients, server and broker. -/
def machine (env : Env) (site : Site) : Machine State Action where
  init := {}
  step := step env site

/-- Clients use the keys of the site, and arguments and event data are values of
`json`. -/
def Addressed (site : Site) : State → Action → Prop
  | state, .client index action =>
      Client.Addresses site.usage (state.parties.clients index) action
  | _, _ => True

/-- Everything a step can do. -/
inductive Effect (env : Env) (site : Site) (state : State) : Action → State → Prop
  | handle {channel : Channel} {request : ChannelRequest} {broker : Broker Connection Str Parcel} :
      (logs site state channel)[state.traffic.handled channel]? = some request →
        state.traffic.broker.Handled site.broker.accepts channel.connection request broker →
          Effect env site state (.handle channel)
            { state with traffic := state.traffic.handling channel broker }
  | refuse {channel : Channel} {request : ChannelRequest} :
      (logs site state channel)[state.traffic.handled channel]? = some request →
        site.broker.handle state.traffic.broker channel.connection request = none →
          Effect env site state (.handle channel)
            { state with closed := Function.update state.closed channel true }
  | start {index : Nat} : 0 < confirmed site state (.receive (.client index)) →
      Effect env site state (.start index)
        { state with running := Function.update state.running index true }
  | client {index : Nat} {action : Client.Action} {client : Client.State} :
      action.isDelivery = false → action.reuses state.parties.ids = false →
        state.running index = true → granted site state index action = true →
          Client.step env (site.config index) (state.parties.clients index) action = some client →
            Effect env site state (.client index action)
              { state with parties := state.parties.putClient index client }
  | server {action : Server.Action} {server : Server.State} : isMessage action = false →
      Server.step env state.parties.server action = some server →
        Effect env site state (.server action)
          { state with parties := state.parties.putServer server }
  | reply {index : Nat} {consumer : Consumer Connection Str} {parcel : Parcel} {tag : Nat}
      {broker : Broker Connection Str Parcel} {client : Client.State} :
      consumer.connection = .client index → consumer.queue = site.callbackQueue index →
        state.traffic.broker.Delivers consumer parcel tag broker →
          Client.step env (site.config index) (state.parties.clients index)
              (.deliver (responseOf parcel)) = some client →
            Effect env site state (.reply index)
              { state with
                parties := state.parties.putClient index client
                traffic := state.traffic.delivering consumer.queue parcel broker }
  | request {consumer : Consumer Connection Str} {parcel : Parcel} {tag : Nat}
      {broker : Broker Connection Str Parcel} {server : Server.State} :
      consumer.connection = .server → consumer.queue = site.rpcQueue →
        state.traffic.broker.Delivers consumer parcel tag broker →
          Server.step env state.parties.server (.rpcMessage parcel.message) = some server →
            Effect env site state .request
              { state with
                parties := state.parties.putServer server
                traffic := state.traffic.delivering consumer.queue parcel broker
                acks := state.acks ++ [tag] }
  | event {consumer : Consumer Connection Str} {parcel : Parcel} {tag : Nat}
      {broker : Broker Connection Str Parcel} {server : Server.State} :
      consumer.connection = .server → consumer.queue = site.eventQueue →
        state.traffic.broker.Delivers consumer parcel tag broker →
          Server.step env state.parties.server (.eventMessage parcel.message.body) = some server →
            Effect env site state .event
              { state with
                parties := state.parties.putServer server
                traffic := state.traffic.delivering consumer.queue parcel broker }

variable {env : Env} {site : Site} {state after : State} {action : Action}

private theorem handle_effect {channel : Channel}
    (stepped : step env site state (.handle channel) = some after) :
    Effect env site state (.handle channel) after := by
  unfold step at stepped
  by_cases isClosed : state.closed channel = true
  · simp only [if_pos isClosed] at stepped
    cases stepped
  · simp only [if_neg isClosed] at stepped
    cases next : (logs site state channel)[state.traffic.handled channel]? with
    | none =>
        simp only [next] at stepped
        cases stepped
    | some request =>
        cases handles : site.broker.handle state.traffic.broker channel.connection request with
        | none =>
            simp only [next, handles] at stepped
            cases stepped
            exact Effect.refuse next handles
        | some broker =>
            simp only [next, handles] at stepped
            cases stepped
            exact Effect.handle next (site.broker.handled handles)

theorem step_effect (stepped : step env site state action = some after) :
    Effect env site state action after := by
  cases action with
  | handle channel => exact handle_effect stepped
  | start index =>
      by_cases ready : 0 < confirmed site state (.receive (.client index))
      · rw [step, if_pos ready] at stepped
        cases stepped
        exact Effect.start ready
      · rw [step, if_neg ready] at stepped
        cases stepped
  | client index action =>
      rw [step] at stepped
      split at stepped
      · cases stepped
      · rename_i allowed
        rw [Bool.not_eq_true, Bool.or_eq_false_iff, Bool.or_eq_false_iff,
          Bool.or_eq_false_iff] at allowed
        obtain ⟨⟨⟨notDelivery, fresh⟩, isRunning⟩, isGranted⟩ := allowed
        obtain ⟨client, moved, same⟩ := Option.bind_eq_some_iff.mp stepped
        cases same
        exact Effect.client notDelivery fresh (Bool.not_eq_eq_eq_not.mp isRunning)
          (Bool.not_eq_eq_eq_not.mp isGranted) moved
  | server action =>
      rw [step] at stepped
      split at stepped
      · cases stepped
      · rename_i notMessage
        obtain ⟨server, moved, same⟩ := Option.bind_eq_some_iff.mp stepped
        cases same
        exact Effect.server (Bool.eq_false_iff.mpr notMessage) moved
  | reply index =>
      obtain ⟨⟨parcel, tag, broker⟩, delivered, stepped⟩ := Option.bind_eq_some_iff.mp stepped
      obtain ⟨client, moved, same⟩ := Option.bind_eq_some_iff.mp stepped
      cases same
      obtain ⟨consumer, connection, queue, delivers⟩ := site.broker.delivers delivered
      rw [← queue]
      exact Effect.reply connection queue delivers moved
  | request =>
      obtain ⟨⟨parcel, tag, broker⟩, delivered, stepped⟩ := Option.bind_eq_some_iff.mp stepped
      obtain ⟨server, moved, same⟩ := Option.bind_eq_some_iff.mp stepped
      cases same
      obtain ⟨consumer, connection, queue, delivers⟩ := site.broker.delivers delivered
      rw [← queue]
      exact Effect.request connection queue delivers moved
  | event =>
      obtain ⟨⟨parcel, tag, broker⟩, delivered, stepped⟩ := Option.bind_eq_some_iff.mp stepped
      obtain ⟨server, moved, same⟩ := Option.bind_eq_some_iff.mp stepped
      cases same
      obtain ⟨consumer, connection, queue, delivers⟩ := site.broker.delivers delivered
      rw [← queue]
      exact Effect.event connection queue delivers moved

end Deployment

end Ccmqsrv
