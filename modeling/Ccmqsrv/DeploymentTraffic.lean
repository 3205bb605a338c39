import Ccmqsrv.Deployment

/-!
# What the channels of a site carry

The requests on a channel only go on, and the broker agrees with them.  A
client gives commands after its callback queue was bound, so the exchanges are
there by then.  Whatever is requested is one of a few kinds of requests, and
each queue gets the messages of one kind only.
-/

namespace Ccmqsrv

open Foundations

namespace Deployment

variable {env : Env} {site : Site} {state after : State} {action : Action} {index : Nat}
  {channel : Channel}

section Logs

private theorem putClient_commands {mover : Nat} {client : Client.State}
    (grows : (state.parties.clients mover).commands <+: client.commands) (index : Nat) :
    (state.parties.clients index).commands <+:
      ((state.parties.putClient mover client).clients index).commands := by
  by_cases same : index = mover
  · subst same
    rw [Network.State.putClient_self]
    exact grows
  · rw [Network.State.putClient_of_ne _ _ same]

theorem commands_grows (effect : Effect env site state action after) (index : Nat) :
    (state.parties.clients index).commands <+: (after.parties.clients index).commands := by
  cases effect with
  | client notDelivery fresh isRunning isGranted moved =>
      exact putClient_commands (Client.commands_grows moved) index
  | reply connection queue delivers moved =>
      exact putClient_commands (Client.commands_grows moved) index
  | _ => exact List.prefix_refl _

theorem published_grows (effect : Effect env site state action after) :
    state.parties.server.published <+: after.parties.server.published := by
  cases effect with
  | server notMessage moved => exact Server.published_grows moved
  | request connection queue delivers moved => exact Server.published_grows moved
  | event connection queue delivers moved => exact Server.published_grows moved
  | _ => exact List.prefix_refl _

/-- Requests that were given stay given. -/
theorem logs_grows (effect : Effect env site state action after) (channel : Channel) :
    logs site state channel <+: logs site after channel := by
  cases channel with
  | receive connection =>
      cases connection with
      | client index => exact List.prefix_refl _
      | server =>
          have acks : state.acks <+: after.acks := by
            cases effect with
            | request connection queue delivers moved => exact List.prefix_append _ _
            | _ => exact List.prefix_refl _
          exact (List.prefix_append_right_inj _).mpr (acks.map _)
  | send connection =>
      cases connection with
      | client index => exact (commands_grows effect index).map _
      | server => exact (published_grows effect).map _

end Logs

/-- The broker agrees with the requests that were given. -/
def Settled (site : Site) (state : State) : Prop :=
  Traffic.Settled site.broker.accepts Channel.connection (logs site state) state.traffic

theorem Settled.next (settled : Settled site state)
    (effect : Effect env site state action after) : Settled site after := by
  have extended := Traffic.Settled.extend settled (logs_grows effect)
  cases effect with
  | handle next handled => exact extended.handle next handled
  | reply connection queue delivers moved => exact extended.deliver delivers
  | request connection queue delivers moved => exact extended.deliver delivers
  | event connection queue delivers moved => exact extended.deliver delivers
  | _ => exact extended

theorem settled_of_reachable (reachable : (machine env site).Reachable state) :
    Settled site state := by
  refine reachable.invariant (Settled site) ?_ ?_
  · exact Traffic.settled_start _ _ _
  · intro _ _ _ _ settled stepped
    exact settled.next (step_effect stepped)

section Started

/-- A client gives commands only after its callback queue was bound. -/
structure Started (site : Site) (state : State) : Prop where
  made : ∀ index, state.running index = true → site.made index = true
  bound : ∀ index, state.running index = true →
    4 ≤ state.traffic.handled (.receive (.client index))
  idle : ∀ index, state.running index = false →
    (state.parties.clients index).commands = [] ∧
      ∀ call message, .sent call message ∉ (state.parties.clients index).history

theorem logs_receive_client (isMade : site.made index = true) (state : State) :
    logs site state (.receive (.client index)) = site.clientSetup index :=
  if_pos isMade

private theorem made_of_confirmed
    (ready : 0 < confirmed site state (.receive (.client index))) : site.made index = true := by
  by_contra notMade
  rw [confirmed, logs, if_neg notMade, List.take_nil] at ready
  cases ready

private theorem four_le_of_confirmed
    (ready : 0 < confirmed site state (.receive (.client index))) :
    4 ≤ state.traffic.handled (.receive (.client index)) := by
  have isMade := made_of_confirmed ready
  rw [confirmed, logs_receive_client isMade] at ready
  generalize state.traffic.handled (.receive (.client index)) = handled at ready
  match handled with
  | 0 => cases ready
  | 1 => cases ready
  | 2 => cases ready
  | 3 => cases ready
  | more + 4 => exact Nat.le_add_left 4 more

private theorem handled_le (effect : Effect env site state action after) (channel : Channel) :
    state.traffic.handled channel ≤ after.traffic.handled channel := by
  cases effect with
  | @handle moved request broker next handled =>
      show _ ≤ (state.traffic.handling moved broker).handled channel
      by_cases same : channel = moved
      · rw [same, Traffic.handled_handling_self]
        exact Nat.le_succ _
      · rw [Traffic.handled_handling_of_ne _ _ same]
  | _ => exact Nat.le_refl _

theorem Started.next (started : Started site state)
    (effect : Effect env site state action after) : Started site after := by
  have bound : ∀ index, state.running index = true →
      4 ≤ after.traffic.handled (.receive (.client index)) := fun index isRunning =>
    Nat.le_trans (started.bound index isRunning) (handled_le effect _)
  cases effect with
  | @start index ready =>
      constructor
      · intro other isRunning
        by_cases same : other = index
        · rw [same]
          exact made_of_confirmed ready
        · have before : Function.update state.running index true other = true := isRunning
          rw [Function.update_of_ne same] at before
          exact started.made other before
      · intro other isRunning
        by_cases same : other = index
        · rw [same]
          exact four_le_of_confirmed ready
        · have before : Function.update state.running index true other = true := isRunning
          rw [Function.update_of_ne same] at before
          exact bound other before
      · intro other notRunning
        by_cases same : other = index
        · have before : Function.update state.running index true other = false := notRunning
          rw [same, Function.update_self] at before
          cases before
        · have before : Function.update state.running index true other = false := notRunning
          rw [Function.update_of_ne same] at before
          exact started.idle other before
  | @client index action client notDelivery fresh isRunning isGranted moved =>
      refine ⟨started.made, bound, ?_⟩
      intro other notRunning
      have different : other ≠ index := by
        rintro rfl
        exact Bool.false_ne_true (notRunning.symm.trans isRunning)
      show ((state.parties.putClient index client).clients other).commands = [] ∧ _
      rw [Network.State.putClient_of_ne _ _ different]
      exact started.idle other notRunning
  | @reply index consumer parcel tag broker client connection queue delivers moved =>
      refine ⟨started.made, bound, ?_⟩
      intro other notRunning
      obtain ⟨noCommand, notSent⟩ := started.idle other notRunning
      by_cases same : other = index
      · subst same
        obtain ⟨commands, sent⟩ := Client.deliver_frame moved
        show ((state.parties.putClient other client).clients other).commands = [] ∧ _
        rw [Network.State.putClient_self]
        exact ⟨commands.trans noCommand, fun call message member =>
          notSent call message (sent call message member)⟩
      · show ((state.parties.putClient index client).clients other).commands = [] ∧ _
        rw [Network.State.putClient_of_ne _ _ same]
        exact ⟨noCommand, notSent⟩
  | _ => exact ⟨started.made, bound, started.idle⟩

theorem started_of_reachable (reachable : (machine env site).Reachable state) :
    Started site state := by
  refine reachable.invariant (Started site) ?_ ?_
  · exact ⟨nofun, nofun, fun _ _ => ⟨rfl, nofun⟩⟩
  · intro _ _ _ _ started stepped
    exact started.next (step_effect stepped)

theorem Started.running_of_command (started : Started site state) {command : Client.Command}
    (commanded : command ∈ (state.parties.clients index).commands) :
    state.running index = true := by
  by_contra notRunning
  rw [(started.idle index (Bool.eq_false_iff.mpr notRunning)).1] at commanded
  cases commanded

theorem Started.running_of_sent (started : Started site state) {call : Client.Call}
    {message : Message} (sent : .sent call message ∈ (state.parties.clients index).history) :
    state.running index = true := by
  by_contra notRunning
  exact (started.idle index (Bool.eq_false_iff.mpr notRunning)).2 call message sent

/-- What `run` asked for before the constructor of the client returned. -/
theorem Started.done (started : Started site state) (settled : Settled site state)
    (isRunning : state.running index = true) {request : ChannelRequest}
    (first : request ∈ (site.clientSetup index).take 4) :
    state.traffic.broker.Done (.client index) request := by
  refine settled.done (.receive (.client index)) request ?_
  rw [logs_receive_client (started.made index isRunning)]
  exact (List.take_prefix_take_left (started.bound index isRunning)).subset first

end Started

/-- The queues that are declared, and as what. -/
inductive Declares (site : Site) : Str → QueueKind Connection → Prop
  | callback {index : Nat} : site.made index = true →
      Declares site (site.callbackQueue index) (exclusive (.client index))
  | calls : site.rpcQueue ≠ [] → Declares site site.rpcQueue (exclusive .server)
  | events {queue : Str} : site.usage.admits queue → Declares site queue durable

/-- The exchanges that queues are bound to; the key is the name of the queue. -/
inductive Binds (site : Site) : Str → Str → Prop
  | callback {index : Nat} : site.made index = true →
      Binds site site.rpcExchange (site.callbackQueue index)
  | calls : site.rpcQueue ≠ [] → Binds site site.rpcExchange site.rpcQueue
  | events {queue : Str} : site.usage.admits queue → Binds site site.eventExchange queue

/-- The queues that are consumed, and whether without acknowledgements. -/
inductive Consumes (site : Site) : Connection → Str → Bool → Prop
  | callback (index : Nat) : Consumes site (.client index) (site.callbackQueue index) true
  | calls : site.rpcQueue ≠ [] → Consumes site .server site.rpcQueue false
  | events : site.eventQueue ≠ [] → Consumes site .server site.eventQueue true

/-- What is published. -/
inductive Permitted (site : Site) : Parcel → Prop
  | call {index : Nat} {routingKey : Str} {message : Message} : site.usage.asks routingKey →
      Permitted site { origin := .client index, exchange := site.rpcExchange, routingKey, message }
  | event {index : Nat} {routingKey : Str} {message : Message} : site.usage.admits routingKey →
      Permitted site
        { origin := .client index, exchange := site.eventExchange, routingKey, message }
  | reply {index : Nat} {message : Message} :
      Permitted site
        { origin := .server, exchange := [], routingKey := site.callbackQueue index, message }

/-- What is requested on a connection. -/
inductive Orderly (site : Site) (connection : Connection) : ChannelRequest → Prop
  | declareExchange {exchange : Str} : exchange = site.rpcExchange ∨ exchange = site.eventExchange →
      Orderly site connection (.declareExchange exchange)
  | declareQueue {queue : Str} {kind : QueueKind Connection} : Declares site queue kind →
      kind.owner.all (fun owner => owner = connection) = true →
        Orderly site connection (.declareQueue queue kind)
  | bindQueue {exchange queue : Str} : Binds site exchange queue →
      Orderly site connection (.bindQueue exchange queue queue)
  | setQos (prefetch : Nat) : Orderly site connection (.setQos prefetch)
  | consume {queue : Str} {noack : Bool} : Consumes site connection queue noack →
      Orderly site connection (.consume queue noack)
  | publish {parcel : Parcel} : Permitted site parcel →
      Orderly site connection (publishRequest parcel)
  | ack (tag : Nat) : Orderly site connection (.ack tag)

theorem admits_eventQueue (named : site.eventQueue ≠ []) : site.usage.admits site.eventQueue := by
  refine ⟨named, ?_, fun index same => site.callbackNotEvent index same.symm,
    site.eventPermitted named⟩
  intro same
  by_cases noCalls : site.rpcQueue = []
  · exact named (same.trans noCalls)
  · exact site.queuesApart noCalls same.symm

private theorem owner_exclusive (connection : Connection) :
    (exclusive connection).owner.all (fun owner => owner = connection) = true :=
  decide_eq_true rfl

private theorem orderly_clientSetup (isMade : site.made index = true) :
    ∀ request ∈ site.clientSetup index, Orderly site (.client index) request := by
  simp only [Site.clientSetup, List.forall_mem_cons]
  exact ⟨Orderly.declareExchange (Or.inl rfl), Orderly.declareExchange (Or.inr rfl),
    Orderly.declareQueue (Declares.callback isMade) (owner_exclusive _),
    Orderly.bindQueue (Binds.callback isMade), Orderly.consume (Consumes.callback index), nofun⟩

private theorem orderly_serverSetup :
    ∀ request ∈ site.serverSetup, Orderly site .server request := by
  have calls : ∀ request ∈ site.callsSetup, Orderly site .server request := by
    unfold Site.callsSetup
    split
    · nofun
    · rename_i named
      have isNamed := List.isEmpty_eq_false_iff.mp (Bool.eq_false_iff.mpr named)
      simp only [List.forall_mem_cons]
      exact ⟨Orderly.declareQueue (Declares.calls isNamed) (owner_exclusive _),
        Orderly.bindQueue (Binds.calls isNamed), Orderly.consume (Consumes.calls isNamed), nofun⟩
  have events : ∀ request ∈ site.eventsSetup, Orderly site .server request := by
    unfold Site.eventsSetup
    split
    · nofun
    · rename_i named
      have isNamed := List.isEmpty_eq_false_iff.mp (Bool.eq_false_iff.mpr named)
      have admits := admits_eventQueue isNamed
      simp only [List.forall_mem_cons]
      exact ⟨Orderly.declareQueue (Declares.events admits) rfl,
        Orderly.bindQueue (Binds.events admits), Orderly.consume (Consumes.events isNamed), nofun⟩
  intro request member
  rcases List.mem_append.mp member with earlier | isEvents
  · rcases List.mem_append.mp earlier with exchanges | isCalls
    · simp only [List.mem_cons, List.not_mem_nil, or_false] at exchanges
      rcases exchanges with rfl | rfl | rfl
      · exact Orderly.declareExchange (Or.inl rfl)
      · exact Orderly.declareExchange (Or.inr rfl)
      · exact Orderly.setQos 1
    · exact calls request isCalls
  · exact events request isEvents

/-- The parties of a site keep to what is described. -/
structure Behaved (env : Env) (site : Site) (parties : Network.State) : Prop where
  proper : ∀ index,
    Client.CommandsProper env (site.config index) site.usage (parties.clients index)
  addressed : ∀ envelope ∈ parties.server.published, ∃ index,
    envelope.routingKey = site.callbackQueue index

private theorem orderly_command {before : List Client.Command} {command : Client.Command}
    (proper : Client.Proper env (site.config index) site.usage before command) :
    Orderly site (.client index) (commandRequest index command) := by
  cases command with
  | declareQueue queue => exact Orderly.declareQueue (Declares.events proper) rfl
  | bindQueue exchange queue routingKey =>
      obtain ⟨rfl, rfl, admits, _⟩ := proper
      exact Orderly.bindQueue (Binds.events admits)
  | publish exchange routingKey message =>
      rcases proper with ⟨rfl, admits, _⟩ | ⟨rfl, asks⟩
      · exact Orderly.publish (Permitted.event admits)
      · exact Orderly.publish (Permitted.call asks)

theorem orderly (behaved : Behaved env site state.parties) (channel : Channel) :
    ∀ request ∈ logs site state channel, Orderly site channel.connection request := by
  intro request member
  cases channel with
  | receive connection =>
      cases connection with
      | client index =>
          rw [logs] at member
          split at member
          · rename_i isMade
            exact orderly_clientSetup isMade request member
          · cases member
      | server =>
          rcases List.mem_append.mp member with inSetup | isAck
          · exact orderly_serverSetup request inSetup
          · obtain ⟨tag, _, rfl⟩ := List.mem_map.mp isAck
            exact Orderly.ack tag
  | send connection =>
      cases connection with
      | client index =>
          obtain ⟨command, commanded, rfl⟩ := List.mem_map.mp member
          obtain ⟨before, later, split⟩ := List.append_of_mem commanded
          exact orderly_command ((behaved.proper index).commands before command later split)
      | server =>
          obtain ⟨envelope, published, rfl⟩ := List.mem_map.mp member
          obtain ⟨index, same⟩ := behaved.addressed envelope published
          refine Orderly.publish ?_
          rw [replyParcel, same]
          exact Permitted.reply

section Queues

variable {parcel : Parcel} {queue : Str}

/-- The parcel was published. -/
inductive Posted (parties : Network.State) : Parcel → Prop
  | command {index : Nat} {exchange routingKey : Str} {message : Message} :
      .publish exchange routingKey message ∈ (parties.clients index).commands →
        Posted parties { origin := .client index, exchange, routingKey, message }
  | envelope {envelope : Envelope} : envelope ∈ parties.server.published →
      Posted parties (replyParcel envelope)

/-- A parcel is published on the channel of its connection. -/
theorem mem_logs_publish {exchange : Option Str} {routingKey : Str}
    (member : .publish exchange routingKey parcel ∈ logs site state channel) :
    channel = .send parcel.origin ∧ .publish exchange routingKey parcel = publishRequest parcel ∧
      Posted state.parties parcel := by
  cases channel with
  | receive connection =>
      cases connection with
      | client index =>
          rw [logs] at member
          split at member <;> simp [Site.clientSetup] at member
      | server =>
          rcases List.mem_append.mp member with inSetup | isAck
          · simp only [Site.serverSetup, Site.callsSetup, Site.eventsSetup] at inSetup
            split at inSetup <;> split at inSetup <;> simp at inSetup
          · obtain ⟨tag, _, impossible⟩ := List.mem_map.mp isAck
            cases impossible
  | send connection =>
      cases connection with
      | client index =>
          obtain ⟨command, commanded, same⟩ := List.mem_map.mp member
          cases command with
          | publish exchange routingKey message =>
              cases same
              exact ⟨rfl, rfl, Posted.command commanded⟩
          | _ => cases same
      | server =>
          obtain ⟨envelope, published, same⟩ := List.mem_map.mp member
          cases same
          exact ⟨rfl, rfl, Posted.envelope published⟩

/-- What a queue may hold: a queue for calls, for events or for replies. -/
inductive Holds (site : Site) : Str → Parcel → Prop
  | call {index : Nat} {routingKey : Str} {message : Message} :
      site.rpcQueue ≠ [] → site.broker.accepts site.rpcQueue routingKey = true →
        Holds site site.rpcQueue
          { origin := .client index, exchange := site.rpcExchange, routingKey, message }
  | event {index : Nat} {queue routingKey : Str} {message : Message} :
      site.usage.admits queue → site.broker.accepts queue routingKey = true →
        Holds site queue
          { origin := .client index, exchange := site.eventExchange, routingKey, message }
  | reply {index : Nat} {message : Message} :
      Holds site (site.callbackQueue index)
        { origin := .server, exchange := [], routingKey := site.callbackQueue index, message }

theorem exchangeOf_named {name : Str} (named : name ≠ []) : exchangeOf name = some name :=
  if_neg (List.isEmpty_eq_false_iff.mpr named ▸ Bool.false_ne_true)

/-- The broker has only bindings that were asked for. -/
theorem binds_of_routes (settled : Settled site state) (behaved : Behaved env site state.parties)
    {exchange routingKey : Str}
    (routes : state.traffic.broker.routes site.broker.accepts exchange routingKey queue = true) :
    Binds site exchange queue ∧ site.broker.accepts queue routingKey = true := by
  obtain ⟨binding, member, matched⟩ := List.any_eq_true.mp routes
  simp only [Bool.and_eq_true, decide_eq_true_eq] at matched
  obtain ⟨⟨rfl, rfl⟩, accepted⟩ := matched
  obtain ⟨channel, asked⟩ := settled.bindings binding member
  have isOrderly := orderly behaved channel _ asked
  generalize binding.key = key at accepted isOrderly
  cases isOrderly with
  | bindQueue binds => exact ⟨binds, accepted⟩

private theorem holds_of_permitted (settled : Settled site state)
    (behaved : Behaved env site state.parties) (permitted : Permitted site parcel)
    (leads : state.traffic.broker.leads site.broker.accepts (exchangeOf parcel.exchange)
      parcel.routingKey queue = true) : Holds site queue parcel := by
  cases permitted with
  | reply =>
      have same := of_decide_eq_true leads
      exact same ▸ Holds.reply
  | call asks =>
      rw [exchangeOf_named site.rpcExchangeNamed] at leads
      obtain ⟨binds, accepted⟩ := binds_of_routes settled behaved leads
      generalize isRpc : site.rpcExchange = exchange at binds
      cases binds with
      | callback isMade =>
          exact absurd (site.broker.eq_of_accepts (site.callbackPlain _) accepted).symm (asks.1 _)
      | calls named => exact Holds.call named accepted
      | events admits => exact absurd isRpc site.exchangesApart
  | event admitsKey =>
      rw [exchangeOf_named site.eventExchangeNamed] at leads
      obtain ⟨binds, accepted⟩ := binds_of_routes settled behaved leads
      generalize isEvent : site.eventExchange = exchange at binds
      cases binds with
      | callback isMade => exact absurd isEvent.symm site.exchangesApart
      | calls named => exact absurd isEvent.symm site.exchangesApart
      | events admits => exact Holds.event admits accepted

/-- Everything that came to a queue was published for it. -/
theorem holds_of_arrived (settled : Settled site state) (behaved : Behaved env site state.parties)
    (came : parcel ∈ state.traffic.arrived queue) :
    Posted state.parties parcel ∧ Holds site queue parcel := by
  obtain ⟨channel, exchange, routingKey, asked, leads⟩ := settled.messages queue parcel came
  have isOrderly := orderly behaved channel _ asked
  generalize isRequest : BrokerRequest.publish exchange routingKey parcel = request at isOrderly
  cases isOrderly with
  | publish permitted =>
      cases isRequest
      exact ⟨(mem_logs_publish asked).2.2, holds_of_permitted settled behaved permitted leads⟩
  | _ => cases isRequest

/-- What the queue for calls holds is requests of clients. -/
theorem Holds.of_rpcQueue (holds : Holds site site.rpcQueue parcel) :
    parcel.exchange = site.rpcExchange ∧ (∃ index, parcel.origin = .client index) ∧
      site.broker.accepts site.rpcQueue parcel.routingKey = true := by
  generalize isRpc : site.rpcQueue = queue at holds
  cases holds with
  | call named accepted => exact ⟨rfl, ⟨_, rfl⟩, isRpc ▸ accepted⟩
  | event admits accepted => exact absurd isRpc.symm admits.2.1
  | reply => exact absurd isRpc.symm (site.callbackNotRpc _)

/-- What a callback queue holds is replies with its name. -/
theorem Holds.of_callbackQueue (holds : Holds site (site.callbackQueue index) parcel) :
    parcel.origin = .server ∧ parcel.routingKey = site.callbackQueue index := by
  generalize isCallback : site.callbackQueue index = queue at holds
  cases holds with
  | call named accepted => exact absurd isCallback (site.callbackNotRpc index)
  | event admits accepted => exact absurd isCallback.symm (admits.2.2.1 index)
  | reply => exact ⟨rfl, rfl⟩

theorem Holds.named (holds : Holds site queue parcel) : queue ≠ [] := by
  cases holds with
  | call named accepted => exact named
  | event admits accepted => exact admits.1
  | reply => exact site.callbackNamed _

/-- What the queue of a routing key holds is events. -/
theorem Holds.of_admits (admits : site.usage.admits queue) (holds : Holds site queue parcel) :
    parcel.exchange = site.eventExchange ∧ (∃ index, parcel.origin = .client index) ∧
      site.broker.accepts queue parcel.routingKey = true := by
  cases holds with
  | call named accepted => exact absurd rfl admits.2.1
  | event _ accepted => exact ⟨rfl, ⟨_, rfl⟩, accepted⟩
  | reply => exact absurd rfl (admits.2.2.1 _)

end Queues

end Deployment

end Ccmqsrv
