import Ccmqsrv.ChannelsOpen

/-!
# What is published arrives in order

Whatever is published on one connection for one queue comes to this queue, each
message once and in the order of publication, as long as the queue is there and
bound by then.

For an event its publisher sees to that.  For a reply the client has done so
before it sent the request.  A request has to wait for nobody: what is sent
before the server has bound its queue is lost.
-/

namespace Ccmqsrv

open Foundations

namespace Deployment

variable {env : Env} {site : Site} {state after : State} {action : Action}
  {origin : Connection} {queue : Str} {keep : Parcel → Bool} {lost : List Parcel}

/-- The parcel of a request to publish. -/
def published : ChannelRequest → Option Parcel
  | .publish _ _ parcel => some parcel
  | _ => none

theorem publishRequest_injective : Function.Injective publishRequest :=
  fun _ _ same => Option.some.inj (congrArg published same)

/-- Of the parcels that are to be kept, those that the connection published are
lost at the beginning, delivered from the queue, in the queue or still to be
handled, in this order. -/
def Carried (site : Site) (state : State) (origin : Connection) (queue : Str)
    (keep : Parcel → Bool) (lost : List Parcel) : Prop :=
  state.traffic.Carries (logs site state) (.send origin) queue
    (fun request => (published request).filter keep) keep lost

/-- The queue is there and gets the parcel. -/
def Receives (site : Site) (broker : Broker Connection Str Parcel) (queue : Str)
    (parcel : Parcel) : Prop :=
  (broker.kind queue).isSome = true ∧
    broker.leads site.broker.accepts (exchangeOf parcel.exchange) parcel.routingKey queue = true

section Carried

private theorem arrivals_publishRequest {broker : Broker Connection Str Parcel} {parcel : Parcel}
    (receives : Receives site broker queue parcel) :
    broker.arrivals site.broker.accepts (publishRequest parcel) queue = [parcel] :=
  if_pos (Bool.and_eq_true_iff.mpr receives)

/-- Only a parcel that is published arrives. -/
theorem mem_arrivals {broker : Broker Connection Str Parcel} {request : ChannelRequest}
    {parcel : Parcel} (arrives : parcel ∈ broker.arrivals site.broker.accepts request queue) :
    ∃ exchange routingKey, request = .publish exchange routingKey parcel := by
  cases request with
  | publish exchange routingKey other =>
      rw [Broker.arrivals] at arrives
      split at arrives
      · rw [List.mem_singleton.mp arrives]
        exact ⟨exchange, routingKey, rfl⟩
      · cases arrives
  | _ => cases arrives

private theorem filter_arrivals_own {request : ChannelRequest}
    (asked : request ∈ logs site state (.send origin))
    (receives : ∀ parcel, request = publishRequest parcel → keep parcel = true →
      Receives site state.traffic.broker queue parcel) :
    (state.traffic.broker.arrivals site.broker.accepts request queue).filter keep =
      ((published request).filter keep).toList := by
  cases request with
  | publish exchange routingKey parcel =>
      obtain ⟨_, isRequest, _⟩ := mem_logs_publish asked
      by_cases kept : keep parcel = true
      · rw [isRequest, arrivals_publishRequest (receives parcel isRequest kept)]
        rw [publishRequest, published, Option.filter_some_pos kept, List.filter_singleton, kept]
        rfl
      · rw [published, Option.filter_some_neg (Bool.eq_false_iff.mpr kept)]
        refine List.filter_eq_nil_iff.mpr ?_
        intro other arrives
        obtain ⟨_, _, same⟩ := mem_arrivals arrives
        cases same
        exact kept
  | _ => rfl

private theorem filter_arrivals_other {channel : Channel} {request : ChannelRequest}
    (asked : request ∈ logs site state channel) (different : channel ≠ .send origin)
    (own : ∀ parcel, keep parcel = true → parcel.origin = origin) :
    (state.traffic.broker.arrivals site.broker.accepts request queue).filter keep = [] := by
  refine List.filter_eq_nil_iff.mpr ?_
  intro parcel arrives kept
  obtain ⟨exchange, routingKey, rfl⟩ := mem_arrivals arrives
  obtain ⟨isSend, _, _⟩ := mem_logs_publish asked
  rw [own parcel kept] at isSend
  exact different isSend

theorem Carried.next (carried : Carried site state origin queue keep lost)
    (effect : Effect env site state action after)
    (own : ∀ parcel, keep parcel = true → parcel.origin = origin)
    (receives : ∀ parcel, action = .handle (.send origin) →
      (logs site state (.send origin))[state.traffic.handled (.send origin)]? =
        some (publishRequest parcel) → keep parcel = true →
          Receives site state.traffic.broker queue parcel) :
    Carried site after origin queue keep lost := by
  have extended := Traffic.Carries.extend carried (logs_grows effect (.send origin))
  cases effect with
  | @handle channel request broker next handled =>
      have asked := List.mem_of_getElem? next
      refine extended.handle next handled ?_ ?_
      · rintro rfl
        exact filter_arrivals_own asked fun parcel isRequest =>
          receives parcel rfl (isRequest ▸ next)
      · exact fun different => filter_arrivals_other asked different own
  | reply connection queue delivers moved => exact extended.deliver delivers
  | request connection queue delivers moved => exact extended.deliver delivers
  | event connection queue delivers moved => exact extended.deliver delivers
  | _ => exact extended

theorem carried_start (site : Site) (origin : Connection) (queue : Str) (keep : Parcel → Bool) :
    Carried site {} origin queue keep [] := by
  cases origin with
  | client index => exact Conveys.start
  | server => exact Conveys.start

end Carried

/-- What the connection has published, of the parcels to be kept. -/
def parcels (site : Site) (state : State) (origin : Connection) (keep : Parcel → Bool) :
    List Parcel :=
  (logs site state (.send origin)).filterMap fun request => (published request).filter keep

/-- The part of it that the broker has handled. -/
def handledParcels (site : Site) (state : State) (origin : Connection) (keep : Parcel → Bool) :
    List Parcel :=
  ((logs site state (.send origin)).take (state.traffic.handled (.send origin))).filterMap
    fun request => (published request).filter keep

/-- The part of it that the broker has not handled yet. -/
def pendingParcels (site : Site) (state : State) (origin : Connection) (keep : Parcel → Bool) :
    List Parcel :=
  ((logs site state (.send origin)).drop (state.traffic.handled (.send origin))).filterMap
    fun request => (published request).filter keep

theorem Carried.parcels_eq (carried : Carried site state origin queue keep lost) :
    parcels site state origin keep =
      lost ++ (state.traffic.arrived queue).filter keep ++
        pendingParcels site state origin keep :=
  carried.all

theorem Carried.sublist (carried : Carried site state origin queue keep lost) :
    ((state.traffic.arrived queue).filter keep).Sublist (parcels site state origin keep) :=
  Conveys.sublist carried

theorem Carried.handledParcels_eq (carried : Carried site state origin queue keep lost) :
    handledParcels site state origin keep = lost ++ (state.traffic.arrived queue).filter keep := by
  refine (List.append_left_inj (pendingParcels site state origin keep)).mp ?_
  rw [← carried.parcels_eq, handledParcels, pendingParcels, ← List.filterMap_append,
    List.take_append_drop]
  rfl

/-- A binding for the name of the queue lets it receive every key that matches. -/
private theorem routes_of_bound {broker : Broker Connection Str Parcel} {exchange key : Str}
    (bound : ⟨exchange, queue, queue⟩ ∈ broker.bindings)
    (accepted : site.broker.accepts queue key = true) :
    broker.routes site.broker.accepts exchange key queue = true := by
  refine List.any_eq_true.mpr ⟨_, bound, ?_⟩
  simp only [decide_true, Bool.true_and]
  exact accepted

private theorem command_of_next {index : Nat} {parcel : Parcel} {handled : Nat}
    (next : (logs site state (.send (.client index)))[handled]? = some (publishRequest parcel)) :
    (state.parties.clients index).commands[handled]? =
      some (.publish parcel.exchange parcel.routingKey parcel.message) := by
  rw [logs, List.getElem?_map] at next
  obtain ⟨command, found, isRequest⟩ := Option.map_eq_some_iff.mp next
  cases command with
  | publish exchange routingKey message =>
      cases publishRequest_injective isRequest
      exact found
  | _ => cases isRequest

section Events

/-- The events that the client publishes with the routing key. -/
def ownEvent (site : Site) (index : Nat) (routingKey : Str) (parcel : Parcel) : Bool :=
  parcel.origin = .client index && parcel.exchange = site.eventExchange &&
    parcel.routingKey = routingKey

theorem ownEvent_iff {index : Nat} {routingKey : Str} {parcel : Parcel} :
    ownEvent site index routingKey parcel = true ↔ parcel.origin = .client index ∧
      parcel.exchange = site.eventExchange ∧ parcel.routingKey = routingKey := by
  simp [ownEvent, and_assoc]

/-- An event is published after its queue was declared and bound. -/
private theorem receives_event (sound : Sound env site state) {index : Nat} {parcel : Parcel}
    (next : (logs site state (.send (.client index)))[state.traffic.handled
      (.send (.client index))]? = some (publishRequest parcel))
    (isEvent : parcel.exchange = site.eventExchange) :
    Receives site state.traffic.broker parcel.routingKey parcel := by
  have done := sound.settled.done (.send (.client index))
  have given := (sound.behaved.proper index).commands.of_getElem? (command_of_next next)
  have inLog : ∀ {command : Client.Command}, command ∈ (state.parties.clients index).commands.take
      (state.traffic.handled (.send (.client index))) →
        commandRequest index command ∈ (logs site state (.send (.client index))).take
          (state.traffic.handled (.send (.client index))) := by
    intro command member
    rw [logs, ← List.map_take]
    exact List.mem_map_of_mem member
  rcases given with ⟨_, _, ⟨declared, bound⟩, _⟩ | ⟨isRpc, _⟩
  · have isDeclared : state.traffic.broker.kind parcel.routingKey = some durable :=
      done _ (inLog declared)
    have isBound : ⟨site.eventExchange, parcel.routingKey, parcel.routingKey⟩ ∈
        state.traffic.broker.bindings := done _ (inLog bound)
    refine ⟨Option.isSome_of_eq_some isDeclared, ?_⟩
    rw [isEvent, exchangeOf_named site.eventExchangeNamed]
    exact routes_of_bound isBound (site.broker.accepts_self parcel.routingKey)
  · exact absurd (isRpc.symm.trans isEvent) site.exchangesApart

theorem carried_events (lawful : env.json.Lawful) {trace : List Action}
    (run : (machine env site).Run (Addressed site) trace state) (index : Nat) (routingKey : Str) :
    Carried site state (.client index) routingKey (ownEvent site index routingKey) [] := by
  refine run.invariant (fun _ state => Carried site state (.client index) routingKey
    (ownEvent site index routingKey) []) ?_ ?_
  · exact carried_start site _ _ _
  · intro _ state _ _ earlier carried _ stepped
    refine carried.next (step_effect stepped) (fun _ own => (ownEvent_iff.mp own).1) ?_
    intro parcel _ next own
    obtain ⟨_, isEvent, sameKey⟩ := ownEvent_iff.mp own
    exact sameKey ▸ receives_event (sound_of_run lawful earlier) next isEvent

/-- The events that a client publishes with a routing key come to the queue of
this name in the order of publication, and none is lost or repeated. -/
theorem events_arrive_in_order (lawful : env.json.Lawful) {trace : List Action}
    (run : (machine env site).Run (Addressed site) trace state) (index : Nat) (routingKey : Str) :
    parcels site state (.client index) (ownEvent site index routingKey) =
      (state.traffic.delivered routingKey ++ state.traffic.broker.contents routingKey).filter
          (ownEvent site index routingKey) ++
        pendingParcels site state (.client index) (ownEvent site index routingKey) :=
  (carried_events lawful run index routingKey).parcels_eq

theorem events_arrive_in_order_exampleRun :
    ∃ state, (machine ⟨codec, false⟩ exampleNames.site).Run (Addressed exampleNames.site)
      exampleRun state ∧ allDelivered state = true ∧
        parcels exampleNames.site state (.client 0)
            (ownEvent exampleNames.site 0 (ascii "events")) =
          (state.traffic.delivered (ascii "events") ++
              state.traffic.broker.contents (ascii "events")).filter
              (ownEvent exampleNames.site 0 (ascii "events")) ++
            pendingParcels exampleNames.site state (.client 0)
              (ownEvent exampleNames.site 0 (ascii "events")) := by
  obtain ⟨state, run, delivered, _⟩ := exampleRun_reaches
  exact ⟨state, run, delivered, events_arrive_in_order codec_lawful run 0 (ascii "events")⟩

end Events

section Replies

/-- The replies to the client. -/
def ownReply (site : Site) (index : Nat) (parcel : Parcel) : Bool :=
  parcel.origin = .server && parcel.routingKey = site.callbackQueue index

theorem ownReply_iff {index : Nat} {parcel : Parcel} :
    ownReply site index parcel = true ↔
      parcel.origin = .server ∧ parcel.routingKey = site.callbackQueue index := by
  simp [ownReply]

/-- A client that has sent a request has declared its callback queue. -/
private theorem receives_reply (sound : Sound env site state) {index : Nat} {parcel : Parcel}
    (asked : publishRequest parcel ∈ logs site state (.send .server))
    (toClient : parcel.routingKey = site.callbackQueue index) :
    Receives site state.traffic.broker (site.callbackQueue index) parcel := by
  obtain ⟨envelope, published, same⟩ := List.mem_map.mp asked
  cases publishRequest_injective same
  obtain ⟨asker, isRunning, toAsker⟩ := sound.replies envelope published
  cases site.callbackInjective (toAsker.symm.trans toClient)
  have first : .declareQueue (site.callbackQueue index) (exclusive (.client index)) ∈
      (site.clientSetup index).take 4 := by
    simp [Site.clientSetup]
  have declared : state.traffic.broker.kind (site.callbackQueue index) =
      some (exclusive (.client index)) := sound.started.done sound.settled isRunning first
  exact ⟨Option.isSome_of_eq_some declared, decide_eq_true toClient.symm⟩

theorem carried_replies (lawful : env.json.Lawful) {trace : List Action}
    (run : (machine env site).Run (Addressed site) trace state) (index : Nat) :
    Carried site state .server (site.callbackQueue index) (ownReply site index) [] := by
  refine run.invariant (fun _ state => Carried site state .server (site.callbackQueue index)
    (ownReply site index) []) ?_ ?_
  · exact carried_start site _ _ _
  · intro _ state _ _ earlier carried _ stepped
    refine carried.next (step_effect stepped) (fun _ own => (ownReply_iff.mp own).1) ?_
    intro parcel _ next own
    exact receives_reply (sound_of_run lawful earlier) (List.mem_of_getElem? next)
      (ownReply_iff.mp own).2

/-- A callback queue gets replies only. -/
theorem ownReply_of_arrived (sound : Sound env site state) {index : Nat} :
    ∀ parcel ∈ state.traffic.arrived (site.callbackQueue index),
      ownReply site index parcel = true := by
  intro parcel came
  exact ownReply_iff.mpr (holds_of_arrived sound.settled sound.behaved came).2.of_callbackQueue

/-- The replies to a client come to its callback queue in the order in which the
server published them; none is lost or repeated, and nothing else comes. -/
theorem replies_arrive_in_order (lawful : env.json.Lawful) {trace : List Action}
    (run : (machine env site).Run (Addressed site) trace state) (index : Nat) :
    parcels site state .server (ownReply site index) =
      state.traffic.delivered (site.callbackQueue index) ++
          state.traffic.broker.contents (site.callbackQueue index) ++
        pendingParcels site state .server (ownReply site index) := by
  have all := (carried_replies lawful run index).parcels_eq
  rw [List.filter_eq_self.mpr (ownReply_of_arrived (sound_of_run lawful run))] at all
  exact all

theorem replies_arrive_in_order_exampleRun :
    ∃ state, (machine ⟨codec, false⟩ exampleNames.site).Run (Addressed exampleNames.site)
      exampleRun state ∧ allDelivered state = true ∧
        parcels exampleNames.site state .server (ownReply exampleNames.site 0) =
          state.traffic.delivered (exampleNames.site.callbackQueue 0) ++
              state.traffic.broker.contents (exampleNames.site.callbackQueue 0) ++
            pendingParcels exampleNames.site state .server (ownReply exampleNames.site 0) := by
  obtain ⟨state, run, delivered, _⟩ := exampleRun_reaches
  exact ⟨state, run, delivered, replies_arrive_in_order codec_lawful run 0⟩

end Replies

section Calls

/-- The requests of the client that go to the queue of the server. -/
def ownCall (site : Site) (index : Nat) (parcel : Parcel) : Bool :=
  parcel.origin = .client index && parcel.exchange = site.rpcExchange &&
    site.broker.accepts site.rpcQueue parcel.routingKey

theorem ownCall_iff {index : Nat} {parcel : Parcel} :
    ownCall site index parcel = true ↔ parcel.origin = .client index ∧
      parcel.exchange = site.rpcExchange ∧
        site.broker.accepts site.rpcQueue parcel.routingKey = true := by
  simp [ownCall, and_assoc]

/-- The server has bound its queue for calls. -/
def Listening (site : Site) (state : State) : Prop :=
  ⟨site.rpcExchange, site.rpcQueue, site.rpcQueue⟩ ∈ state.traffic.broker.bindings

/-- Requests reach the queue through its binding only. -/
private theorem listening_of_leads (sound : Sound env site state) {parcel : Parcel} {index : Nat}
    (own : ownCall site index parcel = true)
    (leads : state.traffic.broker.leads site.broker.accepts (exchangeOf parcel.exchange)
      parcel.routingKey site.rpcQueue = true) : Listening site state := by
  rw [(ownCall_iff.mp own).2.1, exchangeOf_named site.rpcExchangeNamed] at leads
  obtain ⟨⟨exchange, queue, key⟩, member, matched⟩ := List.any_eq_true.mp leads
  simp only [Bool.and_eq_true, decide_eq_true_eq] at matched
  obtain ⟨⟨rfl, rfl⟩, _⟩ := matched
  obtain ⟨channel, asked⟩ := sound.settled.bindings _ member
  have isOrderly := orderly sound.behaved channel _ asked
  cases isOrderly with
  | bindQueue binds => exact member

private theorem receives_call (settled : Settled site state) {index : Nat} {parcel : Parcel}
    (listening : Listening site state) (own : ownCall site index parcel = true) :
    Receives site state.traffic.broker site.rpcQueue parcel := by
  obtain ⟨_, isRpc, accepted⟩ := ownCall_iff.mp own
  obtain ⟨kind, declared⟩ := settled.bound _ listening
  refine ⟨Option.isSome_of_eq_some declared, ?_⟩
  rw [isRpc, exchangeOf_named site.rpcExchangeNamed]
  exact routes_of_bound listening accepted

/-- Before the server has bound its queue no request is in it. -/
private theorem nothing_arrived (sound : Sound env site state) (index : Nat)
    (notListening : ¬ Listening site state) :
    (state.traffic.arrived site.rpcQueue).filter (ownCall site index) = [] := by
  refine List.filter_eq_nil_iff.mpr ?_
  intro parcel came own
  obtain ⟨channel, exchange, routingKey, asked, leads⟩ := sound.settled.messages _ parcel came
  obtain ⟨_, isRequest, _⟩ := mem_logs_publish asked
  cases isRequest
  exact notListening (listening_of_leads sound own leads)

private theorem nothing_arrives (sound : Sound env site state) (index : Nat) {channel : Channel}
    {request : ChannelRequest} (asked : request ∈ logs site state channel)
    (notListening : ¬ Listening site state) :
    (state.traffic.broker.arrivals site.broker.accepts request site.rpcQueue).filter
      (ownCall site index) = [] := by
  refine List.filter_eq_nil_iff.mpr ?_
  intro parcel arrives own
  obtain ⟨exchange, routingKey, rfl⟩ := mem_arrivals arrives
  obtain ⟨_, isRequest, _⟩ := mem_logs_publish asked
  cases isRequest
  rw [Broker.arrivals] at arrives
  split at arrives
  · rename_i goes
    exact notListening (listening_of_leads sound own (Bool.and_eq_true_iff.mp goes).2)
  · cases arrives

/-- The requests of the client are carried, and only what was handled before
the server listens is lost. -/
private theorem carried_calls_next (sound : Sound env site state) {index : Nat}
    (carried : Carried site state (.client index) site.rpcQueue (ownCall site index) lost)
    (effect : Effect env site state action after) :
    ∃ lostAfter, (Listening site state → lostAfter = lost) ∧
      Carried site after (.client index) site.rpcQueue (ownCall site index) lostAfter := by
  have kept : (∀ parcel, action = .handle (.send (.client index)) →
      ownCall site index parcel = true → Listening site state) →
        ∃ lostAfter, (Listening site state → lostAfter = lost) ∧
          Carried site after (.client index) site.rpcQueue (ownCall site index) lostAfter := by
    intro listens
    refine ⟨lost, fun _ => rfl, carried.next effect (fun _ own => (ownCall_iff.mp own).1) ?_⟩
    exact fun parcel same _ own => receives_call sound.settled (listens parcel same own) own
  by_cases listening : Listening site state
  · exact kept fun _ _ _ => listening
  · cases effect with
    | handle next handled =>
        obtain ⟨lostAfter, carriedAfter⟩ := Traffic.Carries.handle_lost carried next handled
          (nothing_arrived sound index listening)
          (nothing_arrives sound index (List.mem_of_getElem? next) listening)
        exact ⟨lostAfter, fun impossible => absurd impossible listening, carriedAfter⟩
    | refuse next refused => exact ⟨lost, fun _ => rfl, carried⟩
    | _ => exact kept fun _ same _ => nomatch same

theorem carried_calls (lawful : env.json.Lawful) {trace : List Action}
    (run : (machine env site).Run (Addressed site) trace state) (index : Nat) :
    ∃ lost, Carried site state (.client index) site.rpcQueue (ownCall site index) lost := by
  refine run.invariant (fun _ state => ∃ lost,
    Carried site state (.client index) site.rpcQueue (ownCall site index) lost) ?_ ?_
  · exact ⟨[], carried_start site _ _ _⟩
  · intro _ _ _ _ earlier carried _ stepped
    obtain ⟨lost, carried⟩ := carried
    obtain ⟨lostAfter, _, carriedAfter⟩ :=
      carried_calls_next (sound_of_run lawful earlier) carried (step_effect stepped)
    exact ⟨lostAfter, carriedAfter⟩

theorem bindings_subset (effect : Effect env site state action after) :
    state.traffic.broker.bindings ⊆ after.traffic.broker.bindings := by
  cases effect with
  | handle next handled => exact handled.bindings_subset
  | reply connection queue delivers moved => exact delivers.bindings_subset
  | request connection queue delivers moved => exact delivers.bindings_subset
  | event connection queue delivers moved => exact delivers.bindings_subset
  | _ => exact List.Subset.refl _

/-- While the server listens no request is lost. -/
theorem carried_calls_of_listening (lawful : env.json.Lawful) {trace : List Action}
    (run : (machine env site).Run (Addressed site) trace state) (listening : Listening site state)
    {index : Nat}
    (carried : Carried site state (.client index) site.rpcQueue (ownCall site index) lost)
    {final : State} (later : (machine env site).Leads (Addressed site) state final) :
    Carried site final (.client index) site.rpcQueue (ownCall site index) lost := by
  have kept := later.invariant (fun between =>
    (∃ trace, (machine env site).Run (Addressed site) trace between) ∧ Listening site between ∧
      Carried site between (.client index) site.rpcQueue (ownCall site index) lost)
    ⟨⟨trace, run⟩, listening, carried⟩ ?_
  · exact kept.2.2
  · intro _ _ _ held allowed stepped
    obtain ⟨⟨trace, run⟩, listening, carried⟩ := held
    have effect := step_effect stepped
    obtain ⟨_, same, carriedAfter⟩ := carried_calls_next (sound_of_run lawful run) carried effect
    exact ⟨⟨_, run.next allowed stepped⟩, bindings_subset effect listening, same listening ▸ carriedAfter⟩

/-- The requests of a client come to the queue of the server in order.  Those
that are lost were handled before the server bound its queue. -/
theorem requests_arrive_in_order (lawful : env.json.Lawful) {trace : List Action}
    (run : (machine env site).Run (Addressed site) trace state) (listening : Listening site state)
    {final : State} (later : (machine env site).Leads (Addressed site) state final)
    (index : Nat) :
    ∃ lost, lost <+: handledParcels site state (.client index) (ownCall site index) ∧
      parcels site final (.client index) (ownCall site index) =
        lost ++
          (final.traffic.delivered site.rpcQueue ++
              final.traffic.broker.contents site.rpcQueue).filter (ownCall site index) ++
            pendingParcels site final (.client index) (ownCall site index) := by
  obtain ⟨lost, carried⟩ := carried_calls lawful run index
  have carriedLater := carried_calls_of_listening lawful run listening carried later
  exact ⟨lost, ⟨_, carried.handledParcels_eq.symm⟩, carriedLater.parcels_eq⟩

theorem requests_arrive_in_order_exampleRun :
    ∃ state, (machine ⟨codec, false⟩ exampleNames.site).Run (Addressed exampleNames.site)
      exampleRun state ∧ allDelivered state = true ∧
        ∃ lost, lost <+: handledParcels exampleNames.site state (.client 0)
            (ownCall exampleNames.site 0) ∧
          parcels exampleNames.site state (.client 0) (ownCall exampleNames.site 0) =
            lost ++
              (state.traffic.delivered (ascii "calls") ++
                  state.traffic.broker.contents (ascii "calls")).filter
                  (ownCall exampleNames.site 0) ++
                pendingParcels exampleNames.site state (.client 0)
                  (ownCall exampleNames.site 0) := by
  obtain ⟨state, run, delivered, listening⟩ := exampleRun_reaches
  exact ⟨state, run, delivered,
    requests_arrive_in_order codec_lawful run listening Relation.ReflTransGen.refl 0⟩

end Calls

end Deployment

end Ccmqsrv
