import Ccmqsrv.DeploymentTraffic
import Ccmqsrv.Factories

/-!
# The broker keeps what the network promises

In a network a message may be late, lost, repeated or overtaken, and the only
promise is that what arrives was sent: a request by a client, a reply to the
queue of the client that gets it.  Queues and bindings of a broker keep this
promise as long as clients use other routing keys than the callback queues.

So whatever the parties of a site do, they do in a network as well.
-/

namespace Ccmqsrv

open Foundations

namespace Deployment

/-- The clients of a network are used as described. -/
def Granted (site : Site) : Network.State → Network.Action → Prop
  | state, .client index action =>
      Client.Addresses site.usage (state.clients index) action
  | _, _ => True

variable {env : Env} {site : Site} {state after : State} {parties : Network.State}
  {action : Action} {index : Nat}

/-- Requests name the callback queue of their client. -/
theorem replyTo_of_asked (lawful : env.json.Lawful)
    (reachable : (Network.machine env site.config).Reachable parties) {call : Client.Call}
    {message : Message} (sent : .sent call message ∈ (parties.clients index).history) :
    message.replyTo = site.callbackQueue index ∧ message.correlationID = call.id := by
  have told := Client.callsTold_of_reachable lawful (Network.client_reachable reachable index)
  obtain ⟨body, _, rfl⟩ := told.encoded call message sent
  exact ⟨rfl, rfl⟩

theorem behaved_of_run (lawful : env.json.Lawful) {trace : List Network.Action}
    (run : (Network.machine env site.config).Run (Granted site) trace parties) :
    Behaved env site parties := by
  constructor
  · intro index
    have runs : ∃ clientTrace, (Client.machine env (site.config index)).Run
        (Client.Addresses site.usage) clientTrace (parties.clients index) :=
      Network.clientRun (fun allowed _ => allowed) (fun _ _ => trivial) run index
    obtain ⟨clientTrace, clientRun⟩ := runs
    exact Client.commandsProper_of_run site.exchangesApart clientRun
  · intro envelope published
    obtain ⟨message, ⟨index, call, sent⟩, replies⟩ :=
      (Network.linked_of_reachable run.reachable).attributed.published envelope published
    refine ⟨index, ?_⟩
    rw [(replies.sent lawful).1]
    exact (replyTo_of_asked lawful run.reachable sent).1

section Promises

variable {parcel : Parcel} (settled : Settled site state)
  (behaved : Behaved env site state.parties)

include settled behaved

/-- A message from the queue for calls was sent by a client. -/
theorem sent_of_arrived
    (reachable : (Network.machine env site.config).Reachable state.parties)
    (came : parcel ∈ state.traffic.arrived site.rpcQueue) :
    ∃ index call, .sent call parcel.message ∈ (state.parties.clients index).history := by
  obtain ⟨posted, holds⟩ := holds_of_arrived settled behaved came
  obtain ⟨isRpc, _, _⟩ := holds.of_rpcQueue
  cases posted with
  | @command index exchange routingKey message commanded =>
      have isRpc : exchange = site.rpcExchange := isRpc
      subst isRpc
      have once := Client.requestsOnce_of_reachable site.exchangesApart
        (Network.client_reachable reachable index)
      obtain ⟨call, _, sent⟩ := once.recorded routingKey message commanded
      exact ⟨index, call, sent⟩
  | envelope published => exact absurd isRpc.symm site.rpcExchangeNamed

/-- A message from a callback queue is a reply that was published to it. -/
theorem envelope_of_arrived
    (came : parcel ∈ state.traffic.arrived (site.callbackQueue index)) :
    ∃ envelope, envelope ∈ state.parties.server.published ∧
      envelope.routingKey = site.callbackQueue index ∧
        Network.responseOf envelope = responseOf parcel := by
  obtain ⟨posted, holds⟩ := holds_of_arrived settled behaved came
  obtain ⟨isServer, toClient⟩ := holds.of_callbackQueue
  cases posted with
  | command commanded => cases isServer
  | envelope published => exact ⟨_, published, toClient, rfl⟩

end Promises

theorem arrived_of_delivers {consumer : Consumer Connection Str} {parcel : Parcel} {tag : Nat}
    {broker : Broker Connection Str Parcel}
    (delivers : state.traffic.broker.Delivers consumer parcel tag broker) :
    parcel ∈ state.traffic.arrived consumer.queue := by
  refine List.mem_append_right _ ?_
  rw [delivers.front]
  exact List.mem_cons_self

/-- What a step of the site is in the network. -/
inductive Mirrors (site : Site) (state : State) : Action → Network.Action → Prop
  | client {index : Nat} {action : Client.Action} :
      Mirrors site state (.client index action) (.client index action)
  | server {action : Server.Action} : isMessage action = false →
      Mirrors site state (.server action) (.server action)
  | reply {index : Nat} {envelope : Envelope} :
      Mirrors site state (.reply index) (.reply index envelope)
  | request {index : Nat} {message : Message} :
      Mirrors site state .request (.request index message)
  | event {parcel : Parcel} : parcel ∈ state.traffic.arrived site.eventQueue →
      Mirrors site state .event (.server (.eventMessage parcel.message.body))

/-- A step of the site is a step of the network or none at all. -/
theorem Effect.network (effect : Effect env site state action after) (lawful : env.json.Lawful)
    (settled : Settled site state) (addressed : Addressed site state action)
    {trace : List Network.Action}
    (run : (Network.machine env site.config).Run (Granted site) trace state.parties) :
    after.parties = state.parties ∨ ∃ networkAction, Mirrors site state action networkAction ∧
      Granted site state.parties networkAction ∧
        Network.step env site.config state.parties networkAction = some after.parties := by
  cases effect with
  | handle next handled => exact Or.inl rfl
  | refuse next refused => exact Or.inl rfl
  | start ready => exact Or.inl rfl
  | @client index action client notDelivery fresh isRunning isGranted moved =>
      refine Or.inr ⟨.client index action, Mirrors.client, addressed, ?_⟩
      rw [Network.step, if_neg (by rw [notDelivery, fresh]; exact Bool.false_ne_true), moved]
      rfl
  | @server action server notMessage moved =>
      refine Or.inr ⟨.server action, Mirrors.server notMessage, trivial, ?_⟩
      have notRequest : action.isRequest = false := by
        cases action with
        | rpcMessage message => exact notMessage
        | _ => rfl
      rw [Network.step, if_neg (Bool.eq_false_iff.mp notRequest), moved]
      rfl
  | @reply index consumer parcel tag broker client connection queue delivers moved =>
      have came := arrived_of_delivers delivers
      rw [queue] at came
      obtain ⟨envelope, published, toClient, same⟩ :=
        envelope_of_arrived settled (behaved_of_run lawful run) came
      refine Or.inr ⟨.reply index envelope, Mirrors.reply, trivial, ?_⟩
      have routed : (state.parties.server.published.contains envelope &&
          envelope.routingKey == (site.config index).callbackQueue) = true :=
        Bool.and_eq_true_iff.mpr ⟨List.contains_iff_mem.mpr published, beq_iff_eq.mpr toClient⟩
      rw [Network.step, if_pos routed, same, moved]
      rfl
  | @request consumer parcel tag broker server connection queue delivers moved =>
      have came := arrived_of_delivers delivers
      rw [queue] at came
      obtain ⟨index, call, sent⟩ :=
        sent_of_arrived settled (behaved_of_run lawful run) run.reachable came
      refine Or.inr ⟨.request index parcel.message, Mirrors.request, trivial, ?_⟩
      have wasSent : (state.parties.clients index).history.any
          (Client.Event.sends parcel.message) = true :=
        List.any_eq_true.mpr ⟨_, sent, decide_eq_true rfl⟩
      rw [Network.step, if_pos wasSent, moved]
      rfl
  | @event consumer parcel tag broker server connection queue delivers moved =>
      have came := arrived_of_delivers delivers
      rw [queue] at came
      refine Or.inr ⟨.server (.eventMessage parcel.message.body), Mirrors.event came, trivial, ?_⟩
      have notRequest : ¬ (Server.Action.eventMessage parcel.message.body).isRequest = true :=
        Bool.false_ne_true
      rw [Network.step, if_neg notRequest, moved]
      rfl

/-- What the parties do at a site they do in a network, where they are in the
states that they were in at the site.  What the guard of the site says of a step
holds of the step of the network. -/
theorem networkRun_of_guarded (lawful : env.json.Lawful) {guard : State → Action → Prop}
    {allowed : Network.State → Network.Action → Prop}
    (addressed : ∀ {state action}, guard state action → Addressed site state action)
    (grants : ∀ {state action networkAction}, Settled site state →
      Behaved env site state.parties → guard state action →
        Mirrors site state action networkAction → allowed state.parties networkAction)
    {trace : List Action} (run : (machine env site).Run guard trace state) :
    ∃ networkTrace, (Network.machine env site.config).Run
      (fun parties action => Granted site parties action ∧ allowed parties action) networkTrace
      state.parties := by
  refine run.invariant (fun _ state => ∃ networkTrace, (Network.machine env site.config).Run
    (fun parties action => Granted site parties action ∧ allowed parties action) networkTrace
    state.parties) ?_ ?_
  · exact ⟨[], Machine.Run.start⟩
  · intro _ state after _ earlier reached isAllowed stepped
    obtain ⟨networkTrace, networkRun⟩ := reached
    have settled := settled_of_reachable earlier.reachable
    have grantedRun := networkRun.weaken And.left
    rcases (step_effect stepped).network lawful settled (addressed isAllowed) grantedRun with
      same | ⟨networkAction, mirrors, granted, moved⟩
    · rw [same]
      exact ⟨networkTrace, networkRun⟩
    · have behaved := behaved_of_run lawful grantedRun
      exact ⟨_, networkRun.next ⟨granted, grants settled behaved isAllowed mirrors⟩ moved⟩

theorem networkRun_of_run (lawful : env.json.Lawful) {trace : List Action}
    (run : (machine env site).Run (Addressed site) trace state) :
    ∃ networkTrace, (Network.machine env site.config).Run (Granted site) networkTrace
      state.parties := by
  obtain ⟨networkTrace, networkRun⟩ :=
    @networkRun_of_guarded env site state lawful (Addressed site) (fun _ _ => True) id
      (fun _ _ _ _ => trivial) trace run
  exact ⟨networkTrace, networkRun.weaken And.left⟩

/-- What is known of a site whose clients are used as described. -/
structure Sound (env : Env) (site : Site) (state : State) : Prop where
  settled : Settled site state
  started : Started site state
  reachable : (Network.machine env site.config).Reachable state.parties
  behaved : Behaved env site state.parties
  replies : ∀ envelope ∈ state.parties.server.published, ∃ index,
    state.running index = true ∧ envelope.routingKey = site.callbackQueue index

/-- A reply goes to a client that has sent a request. -/
private theorem replies_running (lawful : env.json.Lawful) (started : Started site state)
    (reachable : (Network.machine env site.config).Reachable state.parties)
    {envelope : Envelope} (published : envelope ∈ state.parties.server.published) :
    ∃ index, state.running index = true ∧ envelope.routingKey = site.callbackQueue index := by
  obtain ⟨message, ⟨index, call, sent⟩, replies⟩ :=
    (Network.linked_of_reachable reachable).attributed.published envelope published
  refine ⟨index, started.running_of_sent sent, ?_⟩
  rw [(replies.sent lawful).1]
  exact (replyTo_of_asked lawful reachable sent).1

theorem sound_of_run (lawful : env.json.Lawful) {trace : List Action}
    (run : (machine env site).Run (Addressed site) trace state) : Sound env site state := by
  obtain ⟨networkTrace, networkRun⟩ := networkRun_of_run lawful run
  have started := started_of_reachable run.reachable
  exact ⟨settled_of_reachable run.reachable, started, networkRun.reachable,
    behaved_of_run lawful networkRun,
    fun envelope => replies_running lawful started networkRun.reachable⟩

/-- Clients and server have the states at a site that they have in a network,
with everything that they have recorded. -/
theorem site_follows_network (lawful : env.json.Lawful) {trace : List Action}
    (run : (machine env site).Run (Addressed site) trace state) :
    ∃ networkTrace, (Network.machine env site.config).Run (Granted site) networkTrace
      state.parties :=
  networkRun_of_run lawful run

theorem site_follows_network_exampleRun :
    ∃ state networkTrace, (machine ⟨codec, false⟩ exampleNames.site).Run
        (Addressed exampleNames.site) exampleRun state ∧
      allDelivered state = true ∧
        (Network.machine ⟨codec, false⟩ exampleNames.site.config).Run
          (Granted exampleNames.site) networkTrace state.parties := by
  obtain ⟨state, run, delivered, _⟩ := exampleRun_reaches
  obtain ⟨networkTrace, networkRun⟩ := site_follows_network codec_lawful run
  exact ⟨state, networkTrace, run, delivered, networkRun⟩

end Deployment

end Ccmqsrv
