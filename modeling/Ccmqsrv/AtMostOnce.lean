import Ccmqsrv.Correlation
import Ccmqsrv.MessageConveyance
import Mathlib.Data.List.Perm.Subperm

/-!
# A call is served at most once

The queues of a broker repeat nothing, and the ids of requests are different on
all clients.  So at most one worker is ever made for a call, this worker
publishes at most one reply, and at most one reply comes back to the client.
-/

namespace Ccmqsrv

open Foundations

/-- The id of the request that a worker was made for. -/
def Task.requestId : Task → Option Str
  | .rpc message => some message.correlationID
  | .rpcCall message _ _ => some message.correlationID
  | .rpcReply message _ => some message.correlationID
  | .event _ _ _ => none

namespace Server

/-- The ids of the requests that have a worker or a reply. -/
def State.inHand (state : State) : List Str :=
  state.tasks.filterMap Task.requestId ++ state.published.map Envelope.correlationID

/-- The id of a request that reaches the server. -/
def Action.receivedId : Action → List Str
  | .rpcMessage message => [message.correlationID]
  | _ => []

variable {env : Env} {tables : List MessageQueueServer} {asked : Message → Prop}
  {state after : State} {action : Action}

/-- A step of a worker leaves one worker or one reply for its request. -/
theorem inHand_workStep (lawful : env.json.Lawful) {task : Task}
    {server : MessageQueueServer} {calls : List Invocation} {next : List Task}
    {published : List Envelope} (current : state.server ∈ tables)
    (attributed : (∃ eventType cbId eventData, task = .event eventType cbId eventData) ∨
      ∃ message, asked message ∧ WorksFor env tables message task)
    (worked : workStep env state.server task = (server, ⟨calls, .ok (next, published)⟩)) :
    next.filterMap Task.requestId ++ published.map Envelope.correlationID =
      task.requestId.toList := by
  have outcome := congrArg (fun worked => worked.2.outcome) worked
  cases task with
  | rpc message =>
      obtain ⟨lookup, _, returned⟩ := bind_eq_ok.mp outcome
      cases returned
      cases lookup <;> rfl
  | rpcCall message meth args =>
      obtain ⟨res, _, returned⟩ := bind_eq_ok.mp outcome
      cases returned
      rfl
  | rpcReply message res =>
      rcases attributed with ⟨_, _, _, impossible⟩ | ⟨asker, _, works⟩
      · cases impossible
      · obtain ⟨envelope, sent, returned⟩ := bind_eq_ok.mp outcome
        cases returned
        have replies : Replies env tables asker envelope :=
          ⟨_, _, _, _, _, _, works, current, worked, List.mem_singleton_self envelope⟩
        cases works.stands
        show [envelope.correlationID] = [message.correlationID]
        rw [(replies.sent lawful).2.1]
  | event eventType cbId eventData =>
      obtain ⟨_, _, returned⟩ := bind_eq_ok.mp outcome
      cases returned
      rfl

/-- What is read off the workers, with one of them apart. -/
theorem filterMap_eraseIdx {α : Type} (read : Task → Option α) {tasks : List Task} {index : Nat}
    {task : Task} (found : tasks[index]? = some task) :
    ((read task).toList ++ (tasks.eraseIdx index).filterMap read).Perm (tasks.filterMap read) := by
  obtain ⟨within, same⟩ := List.getElem?_eq_some_iff.mp found
  have perm := (List.getElem_cons_eraseIdx_perm within).filterMap read
  rw [same] at perm
  cases isRead : read task with
  | none => rwa [List.filterMap_cons_none isRead] at perm
  | some value => rwa [List.filterMap_cons_some isRead] at perm

private theorem filterMap_events (cbIds : List Int) (eventType : Str) (eventData : Any) :
    (cbIds.map fun cbId => Task.event eventType cbId eventData).filterMap Task.requestId = [] := by
  rw [List.filterMap_map]
  exact List.filterMap_eq_nil_iff.mpr fun _ _ => rfl

private theorem inHand_work (lawful : env.json.Lawful) (current : state.server ∈ tables)
    (attributed : Attributed env tables asked state) {index : Nat} {task : Task}
    {server : MessageQueueServer} {calls : List Invocation} {next : List Task}
    {published : List Envelope} (found : state.tasks[index]? = some task)
    (worked : workStep env state.server task = (server, ⟨calls, .ok (next, published)⟩)) :
    ((next ++ state.tasks.eraseIdx index).filterMap Task.requestId ++
      (state.published ++ published).map Envelope.correlationID).Perm state.inHand := by
  have left := inHand_workStep lawful current
    (attributed.tasks task (List.mem_of_getElem? found)) worked
  have perm := filterMap_eraseIdx Task.requestId found
  rw [← left] at perm
  refine List.perm_iff_count.mpr fun id => ?_
  have counts := perm.count_eq id
  simp only [State.inHand, List.filterMap_append, List.map_append, List.count_append]
    at counts ⊢
  omega

theorem inHand_eventMessage {body : Str} {tasks : List Task}
    (received : onEventMessage env state.server body = .ok tasks) :
    (tasks ++ state.tasks).filterMap Task.requestId = state.tasks.filterMap Task.requestId := by
  obtain ⟨_, eventType, eventData, _, _, _, rfl⟩ := onEventMessage_eq_ok.mp received
  rw [List.filterMap_append, filterMap_events]
  rfl

/-- Only a request that reaches the server adds a worker or a reply. -/
theorem inHand_next (lawful : env.json.Lawful) (current : state.server ∈ tables)
    (attributed : Attributed env tables asked state) (effect : Effect env state action after) :
    after.inHand.Subperm (action.receivedId ++ state.inHand) := by
  cases effect with
  | rpcMessage message => exact List.Subperm.refl _
  | eventMessage received =>
      rw [State.inHand, inHand_eventMessage received]
      exact List.Subperm.refl _
  | work found worked => exact (inHand_work lawful current attributed found worked).subperm
  | @workFault index task server calls fault found worked =>
      have fewer := (List.eraseIdx_sublist state.tasks index).filterMap Task.requestId
      exact (fewer.append_right _).subperm
  | _ => exact List.Subperm.refl _

/-- As long as the server is alive it drops no request. -/
theorem inHand_alive (lawful : env.json.Lawful) (current : state.server ∈ tables)
    (attributed : Attributed env tables asked state) (effect : Effect env state action after)
    (alive : after.fault = none) : after.inHand.Perm (action.receivedId ++ state.inHand) := by
  cases effect with
  | eventMessage received =>
      rw [State.inHand, inHand_eventMessage received]
      exact List.Perm.refl _
  | work found worked => exact inHand_work lawful current attributed found worked
  | workFault found worked => cases alive
  | _ => exact List.Perm.refl _

end Server

namespace Deployment

variable {env : Env} {site : Site} {state after : State} {action : Action}

/-- The id that a message carries. -/
def Parcel.id (parcel : Parcel) : Str :=
  parcel.message.correlationID

section Ids

private theorem ids_sublist (index : Nat) :
    ((parcels site state (.client index) (ownCall site index)).map Parcel.id).Sublist
      ((state.parties.clients index).commands.filterMap
        (Client.Command.requestId (site.config index))) := by
  rw [parcels, logs, List.filterMap_map, List.map_filterMap]
  refine filterMap_sublist ?_ _
  intro command id isId
  obtain ⟨parcel, kept, rfl⟩ := Option.map_eq_some_iff.mp isId
  obtain ⟨isParcel, own⟩ := Option.filter_eq_some_iff.mp kept
  cases command with
  | publish exchange routingKey message =>
      cases isParcel
      exact if_pos (ownCall_iff.mp own).2.1
  | _ => cases isParcel

/-- What the queue for calls holds is requests that clients have generated. -/
theorem call_of_arrived (sound : Sound env site state) {parcel : Parcel}
    (came : parcel ∈ state.traffic.arrived site.rpcQueue) :
    ∃ index, ownCall site index parcel = true ∧
      parcel.id ∈ (state.parties.clients index).ids := by
  obtain ⟨posted, holds⟩ := holds_of_arrived sound.settled sound.behaved came
  obtain ⟨isRpc, ⟨index, isClient⟩, accepted⟩ := holds.of_rpcQueue
  refine ⟨index, ownCall_iff.mpr ⟨isClient, isRpc, accepted⟩, ?_⟩
  cases posted with
  | command commanded =>
      cases isClient
      have once := Client.requestsOnce_of_reachable site.exchangesApart
        (Network.client_reachable sound.reachable index)
      refine once.generated _ (List.mem_filterMap.mpr ⟨_, commanded, ?_⟩)
      exact if_pos isRpc
  | envelope published => cases isClient

/-- No two requests in the queue for calls have the same id. -/
theorem nodup_arrived (lawful : env.json.Lawful) {trace : List Action}
    (run : (machine env site).Run (Addressed site) trace state) :
    ((state.traffic.arrived site.rpcQueue).map Parcel.id).Nodup := by
  have sound := sound_of_run lawful run
  have linked := Network.linked_of_reachable sound.reachable
  refine nodup_map_of_sources Parcel.origin ?_ ?_
  · intro origin
    cases origin with
    | client index =>
        have own : ∀ parcel ∈ state.traffic.arrived site.rpcQueue,
            decide (parcel.origin = .client index) = ownCall site index parcel := by
          intro parcel came
          obtain ⟨other, isOwn, _⟩ := call_of_arrived sound came
          obtain ⟨isClient, isRpc, accepted⟩ := ownCall_iff.mp isOwn
          simp [ownCall, isRpc, accepted]
        obtain ⟨lost, carried⟩ := carried_calls lawful run index
        have once := Client.requestsOnce_of_reachable site.exchangesApart
          (Network.client_reachable sound.reachable index)
        rw [List.filter_congr own]
        exact once.once.sublist
          ((carried.sublist.map Parcel.id).trans (ids_sublist index))
    | server =>
        have none : (state.traffic.arrived site.rpcQueue).filter
            (fun parcel => decide (parcel.origin = .server)) = [] := by
          refine List.filter_eq_nil_iff.mpr ?_
          intro parcel came isServer
          obtain ⟨index, isOwn, _⟩ := call_of_arrived sound came
          rw [(ownCall_iff.mp isOwn).1] at isServer
          cases isServer
        rw [none]
        exact List.nodup_nil
  · intro first firstCame second secondCame same
    obtain ⟨index, own, known⟩ := call_of_arrived sound firstCame
    obtain ⟨other, otherOwn, otherKnown⟩ := call_of_arrived sound secondCame
    rw [(ownCall_iff.mp own).1, (ownCall_iff.mp otherOwn).1,
      linked.apart index other first.id known (same ▸ otherKnown)]

end Ids

section Workers

/-- Workers and replies are for requests that were delivered, one for each. -/
def WorkersDelivered (site : Site) (state : State) : Prop :=
  state.parties.server.inHand.Subperm
    ((state.traffic.delivered site.rpcQueue).map Parcel.id)

private theorem inHand_step (lawful : env.json.Lawful) (sound : Sound env site state)
    {serverAction : Server.Action} {server : Server.State}
    (moved : Server.step env state.parties.server serverAction = some server) :
    server.inHand.Subperm (serverAction.receivedId ++ state.parties.server.inHand) := by
  have linked := Network.linked_of_reachable sound.reachable
  have current := linked.attributed.mono
    (List.subset_cons_self state.parties.server.server state.parties.tables) fun _ asked => asked
  exact Server.inHand_next lawful List.mem_cons_self current (Server.step_effect moved).2

private theorem WorkersDelivered.later (workers : WorkersDelivered site state) {ids : List Str}
    {queue : Str} {parcel : Parcel} {broker : Broker Connection Str Parcel}
    (kept : ids.Subperm state.parties.server.inHand) :
    ids.Subperm (((state.traffic.delivering queue parcel broker).delivered site.rpcQueue).map
      Parcel.id) := by
  refine (kept.trans workers).trans (List.Sublist.map Parcel.id ?_).subperm
  exact (Traffic.delivered_prefix_delivering state.traffic parcel broker site.rpcQueue).sublist

theorem WorkersDelivered.next (workers : WorkersDelivered site state) (lawful : env.json.Lawful)
    (sound : Sound env site state) (effect : Effect env site state action after) :
    WorkersDelivered site after := by
  cases effect with
  | @server serverAction server notMessage moved =>
      have kept := inHand_step lawful sound moved
      have nothing : serverAction.receivedId = [] := by
        cases serverAction with
        | rpcMessage message => cases notMessage
        | _ => rfl
      rw [nothing] at kept
      exact kept.trans workers
  | reply connection queue delivers moved => exact workers.later (List.Subperm.refl _)
  | @request consumer parcel tag broker server connection queue delivers moved =>
      have kept := inHand_step lawful sound moved
      unfold WorkersDelivered at workers ⊢
      show server.inHand.Subperm
        (((state.traffic.delivering consumer.queue parcel broker).delivered site.rpcQueue).map
          Parcel.id)
      rw [queue, Traffic.delivered_delivering_self, List.map_append]
      refine kept.trans ?_
      exact ((List.subperm_append_left [parcel.id]).mpr workers).trans
        List.perm_append_comm.subperm
  | event connection queue delivers moved =>
      exact workers.later (inHand_step lawful sound moved)
  | _ => exact workers

theorem workersDelivered_of_run (lawful : env.json.Lawful) {trace : List Action}
    (run : (machine env site).Run (Addressed site) trace state) : WorkersDelivered site state := by
  refine run.invariant (fun _ state => WorkersDelivered site state) ?_ ?_
  · exact List.nil_subperm
  · intro _ _ _ _ earlier workers _ stepped
    exact workers.next lawful (sound_of_run lawful earlier) (step_effect stepped)

private theorem queue_of_event (sound : Sound env site state) {parcel : Parcel}
    (came : parcel ∈ state.traffic.arrived site.eventQueue) : site.rpcQueue ≠ site.eventQueue := by
  intro same
  have named := (holds_of_arrived sound.settled sound.behaved came).2.named
  exact site.queuesApart (same ▸ named) same

private theorem inHand_alive (lawful : env.json.Lawful) (sound : Sound env site state)
    {serverAction : Server.Action} {server : Server.State}
    (held : state.parties.server.fault = none →
      state.parties.server.inHand.Perm ((state.traffic.delivered site.rpcQueue).map Parcel.id))
    (moved : Server.step env state.parties.server serverAction = some server)
    (alive : server.fault = none) :
    server.inHand.Perm
      (serverAction.receivedId ++ (state.traffic.delivered site.rpcQueue).map Parcel.id) := by
  have linked := Network.linked_of_reachable sound.reachable
  have current := linked.attributed.mono
    (List.subset_cons_self state.parties.server.server state.parties.tables) fun _ asked => asked
  obtain ⟨aliveBefore, effect⟩ := Server.step_effect moved
  exact (Server.inHand_alive lawful List.mem_cons_self current effect alive).trans
    ((held aliveBefore).append_left _)

/-- While the server is alive every request that was delivered has its worker or
its reply. -/
theorem inHand_of_run (lawful : env.json.Lawful) {trace : List Action}
    (run : (machine env site).Run (Addressed site) trace state)
    (alive : state.parties.server.fault = none) :
    state.parties.server.inHand.Perm ((state.traffic.delivered site.rpcQueue).map Parcel.id) := by
  revert alive
  refine run.invariant (fun _ state => state.parties.server.fault = none →
    state.parties.server.inHand.Perm ((state.traffic.delivered site.rpcQueue).map Parcel.id)) ?_ ?_
  · exact fun _ => List.Perm.refl _
  · intro _ state after _ earlier held _ stepped alive
    have sound := sound_of_run lawful earlier
    cases step_effect stepped with
    | @server serverAction server notMessage moved =>
        have kept := inHand_alive lawful sound held moved alive
        cases serverAction with
        | rpcMessage message => cases notMessage
        | _ => exact kept
    | @reply index consumer parcel tag broker client connection queue delivers moved =>
        show state.parties.server.inHand.Perm
          (((state.traffic.delivering consumer.queue parcel broker).delivered site.rpcQueue).map
            Parcel.id)
        rw [queue, Traffic.delivered_delivering_of_ne _ _ _ (site.callbackNotRpc index).symm]
        exact held alive
    | @request consumer parcel tag broker server connection queue delivers moved =>
        show server.inHand.Perm
          (((state.traffic.delivering consumer.queue parcel broker).delivered site.rpcQueue).map
            Parcel.id)
        rw [queue, Traffic.delivered_delivering_self, List.map_append]
        exact (inHand_alive lawful sound held moved alive).trans List.perm_append_comm
    | @event consumer parcel tag broker server connection queue delivers moved =>
        have came := arrived_of_delivers delivers
        rw [queue] at came
        show server.inHand.Perm
          (((state.traffic.delivering consumer.queue parcel broker).delivered site.rpcQueue).map
            Parcel.id)
        rw [queue, Traffic.delivered_delivering_of_ne _ _ _ (queue_of_event sound came)]
        exact inHand_alive lawful sound held moved alive
    | _ => exact held alive

end Workers

/-- Each request has one place in the queue of the server, one worker or reply,
and one reply in the queue of its client. -/
structure ServedOnce (site : Site) (state : State) : Prop where
  requests : ((state.traffic.delivered site.rpcQueue ++
    state.traffic.broker.contents site.rpcQueue).map Parcel.id).Nodup
  workers : state.parties.server.inHand.Nodup
  delivered : ∀ id ∈ state.parties.server.inHand,
    id ∈ (state.traffic.delivered site.rpcQueue).map Parcel.id
  replies : ∀ index, ((state.traffic.delivered (site.callbackQueue index) ++
    state.traffic.broker.contents (site.callbackQueue index)).map Parcel.id).Nodup

private theorem replyIds_sublist (state : State) (index : Nat) :
    ((parcels site state .server (ownReply site index)).map Parcel.id).Sublist
      (state.parties.server.published.map Envelope.correlationID) := by
  rw [parcels, logs, List.filterMap_map, List.map_filterMap, ← List.filterMap_eq_map]
  refine filterMap_sublist ?_ _
  intro envelope id isId
  obtain ⟨parcel, kept, rfl⟩ := Option.map_eq_some_iff.mp isId
  have kept : (some (replyParcel envelope)).filter (ownReply site index) = some parcel := kept
  cases (Option.filter_eq_some_iff.mp kept).1
  rfl

theorem servedOnce_of_run (lawful : env.json.Lawful) {trace : List Action}
    (run : (machine env site).Run (Addressed site) trace state) : ServedOnce site state := by
  have requests := nodup_arrived lawful run
  have workers := workersDelivered_of_run lawful run
  have nodupWorkers : state.parties.server.inHand.Nodup := by
    obtain ⟨ids, perm, sublist⟩ := workers
    refine perm.nodup_iff.mp (List.Nodup.sublist sublist ?_)
    exact requests.sublist ((List.sublist_append_left _ _).map Parcel.id)
  refine ⟨requests, nodupWorkers, fun id member => workers.subset member, ?_⟩
  intro index
  have sublist := (carried_replies lawful run index).sublist
  rw [List.filter_eq_self.mpr (ownReply_of_arrived (sound_of_run lawful run))] at sublist
  have nodupReplies := nodupWorkers.sublist (List.sublist_append_right _ _)
  exact nodupReplies.sublist ((sublist.map Parcel.id).trans (replyIds_sublist state index))

/-- No call is executed twice and no call gets two replies, whatever the order
in which clients, workers and broker take their steps. -/
theorem served_at_most_once (lawful : env.json.Lawful) {trace : List Action}
    (run : (machine env site).Run (Addressed site) trace state) : ServedOnce site state :=
  servedOnce_of_run lawful run

theorem served_at_most_once_exampleRun :
    ∃ state, (machine ⟨codec, false⟩ exampleNames.site).Run (Addressed exampleNames.site)
      exampleRun state ∧ allDelivered state = true ∧ ServedOnce exampleNames.site state := by
  obtain ⟨state, run, delivered, _⟩ := exampleRun_reaches
  exact ⟨state, run, delivered, served_at_most_once codec_lawful run⟩

section Returned

/-- The responses that the event loops have seen came from the callback queues. -/
def ResponsesDelivered (site : Site) (state : State) : Prop :=
  ∀ index response found, .delivered response found ∈ (state.parties.clients index).history →
    response.correlationID ∈
      (state.traffic.delivered (site.callbackQueue index)).map Parcel.id

theorem delivered_grows (effect : Effect env site state action after) (queue : Str) :
    state.traffic.delivered queue <+: after.traffic.delivered queue := by
  cases effect with
  | reply connection isQueue delivers moved =>
      exact Traffic.delivered_prefix_delivering state.traffic _ _ queue
  | request connection isQueue delivers moved =>
      exact Traffic.delivered_prefix_delivering state.traffic _ _ queue
  | event connection isQueue delivers moved =>
      exact Traffic.delivered_prefix_delivering state.traffic _ _ queue
  | _ => exact List.prefix_refl _

/-- A client's step adds a reply to what a client has seen only by delivering it there. -/
private theorem delivered_before_putClient {parties : Network.State} {index mover : Nat}
    {action : Client.Action} {client : Client.State} {response : Client.Response} {found : Bool}
    (moved : Client.step env (site.config mover) (parties.clients mover) action = some client)
    (member : .delivered response found ∈ ((parties.putClient mover client).clients index).history) :
    .delivered response found ∈ (parties.clients index).history ∨
      index = mover ∧ action = .deliver response := by
  by_cases same : index = mover
  · subst same
    rw [Network.State.putClient_self] at member
    rcases (Client.step_effect moved).2.loopMove.delivered_before member with old | delivering
    · exact Or.inl old
    · exact Or.inr ⟨rfl, delivering⟩
  · rw [Network.State.putClient_of_ne _ _ same] at member
    exact Or.inl member

theorem ResponsesDelivered.next (known : ResponsesDelivered site state)
    (effect : Effect env site state action after) : ResponsesDelivered site after := by
  intro index response found member
  have earlier : .delivered response found ∈ (state.parties.clients index).history →
      response.correlationID ∈ (after.traffic.delivered (site.callbackQueue index)).map
        Parcel.id := by
    intro old
    exact ((delivered_grows effect _).map Parcel.id).subset (known index response found old)
  cases effect with
  | client notDelivery fresh isRunning isGranted moved =>
      rcases delivered_before_putClient moved member with old | ⟨_, delivering⟩
      · exact earlier old
      · rw [delivering] at notDelivery
        cases notDelivery
  | @reply mover consumer parcel tag broker client connection queue delivers moved =>
      rcases delivered_before_putClient moved member with old | ⟨here, delivering⟩
      · exact earlier old
      · cases delivering
        show _ ∈ ((state.traffic.delivering consumer.queue parcel broker).delivered _).map _
        rw [here, ← queue, Traffic.delivered_delivering_self, List.map_append]
        exact List.mem_append_right _ (List.mem_singleton_self _)
  | _ => exact earlier member

theorem responsesDelivered_of_reachable (reachable : (machine env site).Reachable state) :
    ResponsesDelivered site state := by
  refine reachable.invariant (ResponsesDelivered site) ?_ ?_
  · intro _ _ _ member
    cases member
  · intro _ _ _ _ known stepped
    exact known.next (step_effect stepped)

/-- The call was served by one worker, which has sent its reply. -/
structure ExactlyOnce (site : Site) (state : State) (index : Nat) (call : Client.Call) : Prop where
  request : ((state.traffic.delivered site.rpcQueue).map Parcel.id).count call.id = 1
  reply : (state.parties.server.published.map Envelope.correlationID).count call.id = 1
  noWorker : call.id ∉ state.parties.server.tasks.filterMap Task.requestId
  response : ((state.traffic.delivered (site.callbackQueue index)).map Parcel.id).count call.id = 1

/-- A call that has returned a value was served exactly once, and the value is
from its own reply. -/
theorem returned_exactly_once (lawful : env.json.Lawful) {trace : List Action}
    (run : (machine env site).Run (Addressed site) trace state) {index : Nat} {call : Client.Call}
    {value : Json} (ended : .ended call (.ok value) ∈ (state.parties.clients index).history) :
    ExactlyOnce site state index call ∧ ∃ body envelope,
      Network.OwnReply env site.config state.parties index call value body envelope := by
  have sound := sound_of_run lawful run
  have once := servedOnce_of_run lawful run
  obtain ⟨body, envelope, own⟩ := Network.returned_of_reachable lawful sound.reachable ended
  have published : call.id ∈ state.parties.server.published.map Envelope.correlationID :=
    List.mem_map.mpr ⟨envelope, own.published, own.addressed⟩
  obtain ⟨_, nodupReplies, apart⟩ := List.nodup_append.mp once.workers
  have inHand : call.id ∈ state.parties.server.inHand := List.mem_append_right _ published
  have response := responsesDelivered_of_reachable run.reachable index _ _ own.delivered
  have sameId : (Network.responseOf envelope).correlationID = call.id := own.addressed
  rw [sameId] at response
  refine ⟨⟨?_, ?_, ?_, ?_⟩, body, envelope, own⟩
  · refine List.count_eq_one_of_mem ?_ (once.delivered _ inHand)
    exact once.requests.sublist ((List.sublist_append_left _ _).map Parcel.id)
  · exact List.count_eq_one_of_mem nodupReplies published
  · exact fun working => apart _ working _ published rfl
  · refine List.count_eq_one_of_mem ?_ response
    exact (once.replies index).sublist ((List.sublist_append_left _ _).map Parcel.id)

theorem returned_exactly_once_exampleRun :
    ∃ state call, (machine ⟨codec, false⟩ exampleNames.site).Run (Addressed exampleNames.site)
      exampleRun state ∧ ExactlyOnce exampleNames.site state 0 call := by
  obtain ⟨state, run, delivered, _⟩ := exampleRun_reaches
  obtain ⟨call, value, ended⟩ := exists_of_allDelivered delivered
  exact ⟨state, call, run, (returned_exactly_once codec_lawful run ended).1⟩

end Returned

end Deployment

end Ccmqsrv
