import Ccmqsrv.AtMostOnce
import Ccmqsrv.Foundations.RemoteCall
import Ccmqsrv.MessageSafety
import Ccmqsrv.WorkerCalls

/-!
# A site carries remote calls

Threads, locks, messages, queues and workers are there for one purpose: that a
function is called on the other side.  What can be seen of this in a run are
the requests that are sent, the calls of functions that workers record and the
values that calls return.  Seen this way every run is a history of remote calls.
-/

namespace Ccmqsrv

open Foundations

namespace Client

variable {env : Env} {config : Config} {state after : State}

/-- A call sends one request and ends once. -/
structure OncePerCall (state : State) : Prop where
  unsent : ∀ user call point, state.users user = .call call point → point.BeforeSend →
    ∀ other message, .sent other message ∈ state.history → other.id ≠ call.id
  unended : ∀ user call point, state.users user = .call call point →
    ∀ other outcome, .ended other outcome ∈ state.history → other.id ≠ call.id
  generated : ∀ call outcome, .ended call outcome ∈ state.history → call.id ∈ state.ids

private theorem CallMoves.beforeSend {call : Call} {point next : CallPoint} {events : List Event}
    (moves : CallMoves env config state call point events next) (before : next.BeforeSend) :
    point.BeforeSend := by
  cases moves with
  | lockRegister => trivial
  | register => trivial
  | encode encoded => trivial
  | lockSend => trivial
  | _ => exact False.elim before

/-- A call in progress has begun in the step or goes on. -/
private theorem CallsMove.user_before (move : CallsMove env config state after) {user : Nat}
    {call : Call} {point : CallPoint} (inCall : after.users user = .call call point) :
    call.id ∉ state.ids ∨ ∃ earlier, state.users user = .call call earlier ∧
      (point.BeforeSend → earlier.BeforeSend) := by
  cases move with
  | rest calls ids history quiet => exact Or.inr ⟨point, (calls user call point).mp inCall, id⟩
  | begins idle fresh users ids history =>
      rw [users] at inCall
      rcases eq_call_of_update inCall with ⟨_, same⟩ | ⟨_, earlier⟩
      · cases same
        exact Or.inl fresh
      · exact Or.inr ⟨point, earlier, id⟩
  | moves wasInCall moves users ids history =>
      rw [users] at inCall
      rcases eq_call_of_update inCall with ⟨isUser, same⟩ | ⟨_, earlier⟩
      · cases same
        subst isUser
        exact Or.inr ⟨_, wasInCall, moves.beforeSend⟩
      · exact Or.inr ⟨point, earlier, id⟩
  | ends wasInCall ends users ids history =>
      rw [users] at inCall
      rcases eq_call_of_update inCall with ⟨_, same⟩ | ⟨_, earlier⟩
      · cases same
      · exact Or.inr ⟨point, earlier, id⟩

private theorem CallsMove.ids_subset (move : CallsMove env config state after) :
    state.ids ⊆ after.ids := by
  cases move with
  | begins idle fresh users ids history =>
      rw [ids]
      exact List.subset_cons_self _ _
  | rest calls ids history quiet => exact ids ▸ List.Subset.refl _
  | moves inCall moves users ids history => exact ids ▸ List.Subset.refl _
  | ends inCall ends users ids history => exact ids ▸ List.Subset.refl _

theorem OncePerCall.next (once : OncePerCall state) (own : OwnIds state)
    (distinct : DistinctIds state) (move : CallsMove env config state after) :
    OncePerCall after := by
  constructor
  · intro user call point inCall before other message wasSent same
    rcases move.sent_before wasSent with earlier | ⟨sender, body, sending, users, _⟩
    · rcases move.user_before inCall with fresh | ⟨_, wasInCall, wasBefore⟩
      · exact fresh (same ▸ own.generated other (Or.inr ⟨message, earlier⟩))
      · exact once.unsent user call _ wasInCall (wasBefore before) other message earlier same
    · rw [users] at inCall
      rcases eq_call_of_update inCall with ⟨_, isAwait⟩ | ⟨different, wasInCall⟩
      · cases isAwait
        exact before
      · exact different (distinct.unique wasInCall sending same.symm)
  · intro user call point inCall other outcome hasEnded same
    rcases move.ended_before hasEnded with earlier | ⟨ender, _, wasEnding, _, users⟩
    · rcases move.user_before inCall with fresh | ⟨_, wasInCall, _⟩
      · exact fresh (same ▸ once.generated other outcome earlier)
      · exact once.unended user call _ wasInCall other outcome earlier same
    · rw [users] at inCall
      rcases eq_call_of_update inCall with ⟨_, isIdle⟩ | ⟨different, wasInCall⟩
      · cases isIdle
      · exact different (distinct.unique wasInCall wasEnding same.symm)
  · intro call outcome hasEnded
    rcases move.ended_before hasEnded with earlier | ⟨_, _, wasEnding, _, _⟩
    · exact move.ids_subset (once.generated call outcome earlier)
    · exact move.ids_subset (distinct.known wasEnding)

theorem oncePerCall_of_reachable (lawful : env.json.Lawful)
    (reachable : (machine env config).Reachable state) : OncePerCall state := by
  refine reachable.invariant OncePerCall ?_ ?_
  · constructor
    · intro _ _ _ inCall
      cases inCall
    · intro _ _ _ inCall
      cases inCall
    · intro _ _ ended
      cases ended
  · intro _ _ _ earlier once stepped
    exact once.next (callsTold_of_reachable lawful earlier).ownIds
      (consistent_of_reachable earlier).distinct (step_effect stepped).2.callsMove

/-- What a step shows of the calls: a request that is sent, a call that ends, or
nothing. -/
inductive Shows (config : Config) (state : State) : List Event → Prop
  | nothing {events : List Event} :
      (∀ call message, .sent call message ∉ events) →
        (∀ call outcome, .ended call outcome ∉ events) → Shows config state events
  | sends {user : Nat} {call : Call} {body : Str} :
      state.users user = .call call (.sending body) →
        Shows config state [.sent call (requestMessage config call body)]
  | ends {user : Nat} {call : Call} {point : CallPoint} {outcome : Cpp Json} :
      state.users user = .call call point → Shows config state [.ended call outcome]

theorem CallsMove.shows (move : CallsMove env config state after) :
    ∃ events, after.history = state.history ++ events ∧ Shows config state events := by
  cases move with
  | @rest events calls ids history quiet =>
      refine ⟨events, history, Shows.nothing ?_ ?_⟩
      · exact fun call message member => quiet _ member trivial
      · exact fun call outcome member => quiet _ member trivial
  | begins idle fresh users ids history =>
      exact ⟨[], history.trans (List.append_nil _).symm, Shows.nothing nofun nofun⟩
  | ends inCall ends users ids history => exact ⟨_, history, Shows.ends inCall⟩
  | @moves user call point next events inCall moves users ids history =>
      refine ⟨events, history, ?_⟩
      cases moves with
      | send => exact Shows.sends inCall
      | @get _ next =>
          refine Shows.nothing ?_ ?_
          · intro _ _ member
            cases next <;> simp [leaving] at member
          · intro _ _ member
            cases next <;> simp [leaving] at member
      | _ => exact Shows.nothing nofun nofun

end Client

/-- The id of a request whose function was not called yet. -/
def Task.openId : Task → Option Str
  | .rpc message => some message.correlationID
  | .rpcCall message _ _ => some message.correlationID
  | .rpcReply _ _ => none
  | .event _ _ _ => none

namespace Deployment

/-- Requests are calls with their messages; what an execution gives is the call
that the worker has recorded, with the tables as they were. -/
abbrev SiteEvent := CallEvent Str (Client.Call × Message) (MessageQueueServer × Invocation) Json

/-- The function registered for the method is called on the arguments, and the
caller gets what the function gave. -/
def callRules : CallRules (Client.Call × Message) (MessageQueueServer × Invocation) Json where
  performs := fun request outcome =>
    ∃ f, outcome.1.rpcFuncMap.lookup request.1.meth = some (some f) ∧
      outcome.2.IsCall f ((request.1.args.map Json.scrub).map parseJsonElement)
  yields := fun outcome value => conveyed outcome.2.returned = some (.ok value)

def clientEvent : Client.Event → Option SiteEvent
  | .sent call message => some (.asked call.id (call, message))
  | .ended call (.ok value) => some (.returned call.id value)
  | _ => none

/-- What the client has recorded in the step. -/
def clientShows (before after : State) (index : Nat) : List SiteEvent :=
  ((after.parties.clients index).history.drop
    (before.parties.clients index).history.length).filterMap clientEvent

/-- The call of a worker for a request. -/
def callEvent (server : MessageQueueServer) (call : WorkerCall) : Option SiteEvent :=
  match call.worker with
  | .rpcCall message _ _ => some (.executed message.correlationID (server, call.invocation))
  | _ => none

/-- What the workers have recorded in the step. -/
def serverShows (before after : State) : List SiteEvent :=
  (after.parties.server.calls.drop before.parties.server.calls.length).filterMap
    (callEvent before.parties.server.server)

/-- What a step shows of the calls. -/
def shows (before : State) (action : Action) (after : State) : List SiteEvent :=
  match action with
  | .client index _ => clientShows before after index
  | .reply index => clientShows before after index
  | .server _ => serverShows before after
  | _ => []

/-- What a run shows of the calls. -/
def callHistory (env : Env) (site : Site) (trace : List Action) : List SiteEvent :=
  (machine env site).observe shows trace (machine env site).init

variable {env : Env} {site : Site} {state after : State} {action : Action}
  {events : List SiteEvent} {parties : Network.State} {index : Nat}

/-- Requests and values are those that the clients have recorded. -/
structure ClientSide (events : List SiteEvent) (parties : Network.State) : Prop where
  asked : ∀ id request, .asked id request ∈ events → request.1.id = id ∧
    ∃ index, .sent request.1 request.2 ∈ (parties.clients index).history
  sent : ∀ index call message, .sent call message ∈ (parties.clients index).history →
    .asked call.id (call, message) ∈ events
  returned : ∀ id value, .returned id value ∈ events → ∃ index call, call.id = id ∧
    .ended call (.ok value) ∈ (parties.clients index).history
  ended : ∀ index call value, .ended call (.ok value) ∈ (parties.clients index).history →
    .returned call.id value ∈ events

/-- Executions are those whose replies the server has in hand or has published;
`taken` are the ids of the requests that it has got. -/
structure ServerSide (env : Env) (events : List SiteEvent) (server : Server.State)
    (taken : List Str) : Prop where
  executed : ∀ id outcome, .executed id outcome ∈ events →
    id ∈ taken ∧ id ∉ server.tasks.filterMap Task.openId
  prepared : ∀ message res, .rpcReply message res ∈ server.tasks → res = initialRes message ∨
    ∃ table invocation, .executed message.correlationID (table, invocation) ∈ events ∧
      Outcome env message res invocation.returned
  published : ∀ envelope ∈ server.published, ∃ table invocation,
    .executed envelope.correlationID (table, invocation) ∈ events ∧
      conveyed invocation.returned = some (callOutcome env envelope.body)

section Client

private theorem eq_sent_of_asked {event : Client.Event} {id : Str}
    {request : Client.Call × Message} (shown : clientEvent event = some (.asked id request)) :
    event = .sent request.1 request.2 ∧ request.1.id = id := by
  cases event with
  | sent call message =>
      cases shown
      exact ⟨rfl, rfl⟩
  | ended call outcome => cases outcome <;> cases shown
  | _ => cases shown

private theorem eq_ended_of_returned {event : Client.Event} {id : Str} {value : Json}
    (shown : clientEvent event = some (.returned id value)) :
    ∃ call, event = .ended call (.ok value) ∧ call.id = id := by
  cases event with
  | ended call outcome =>
      cases outcome with
      | ok value =>
          cases shown
          exact ⟨call, rfl, rfl⟩
      | error fault => cases shown
  | _ => cases shown

/-- Executions do not concern the clients. -/
theorem ClientSide.append_executed (side : ClientSide events parties) {id : Str}
    {outcome : MessageQueueServer × Invocation} :
    ClientSide (events ++ [.executed id outcome]) parties := by
  constructor
  · intro other request member
    rcases List.mem_append.mp member with earlier | isLast
    · exact side.asked other request earlier
    · cases List.mem_singleton.mp isLast
  · intro index call message wasSent
    exact List.mem_append_left _ (side.sent index call message wasSent)
  · intro other value member
    rcases List.mem_append.mp member with earlier | isLast
    · exact side.returned other value earlier
    · cases List.mem_singleton.mp isLast
  · intro index call value hasEnded
    exact List.mem_append_left _ (side.ended index call value hasEnded)

/-- The client has recorded more. -/
private theorem ClientSide.putClient (side : ClientSide events parties) {client : Client.State}
    {recorded : List Client.Event}
    (history : client.history = (parties.clients index).history ++ recorded) :
    ClientSide (events ++ recorded.filterMap clientEvent) (parties.putClient index client) := by
  have kept : ∀ {other event}, event ∈ (parties.clients other).history →
      event ∈ ((parties.putClient index client).clients other).history := by
    intro other event member
    by_cases same : other = index
    · subst same
      rw [Network.State.putClient_self, history]
      exact List.mem_append_left _ member
    · rw [Network.State.putClient_of_ne _ _ same]
      exact member
  have isNew : ∀ {event}, event ∈ recorded →
      event ∈ ((parties.putClient index client).clients index).history := by
    intro event member
    rw [Network.State.putClient_self, history]
    exact List.mem_append_right _ member
  have mem_or_mem : ∀ {other event},
      event ∈ ((parties.putClient index client).clients other).history →
        event ∈ (parties.clients other).history ∨ event ∈ recorded := by
    intro other event member
    by_cases same : other = index
    · subst same
      rw [Network.State.putClient_self, history] at member
      exact List.mem_append.mp member
    · rw [Network.State.putClient_of_ne _ _ same] at member
      exact Or.inl member
  constructor
  · intro id request member
    rcases List.mem_append.mp member with earlier | isLast
    · obtain ⟨sameId, other, wasSent⟩ := side.asked id request earlier
      exact ⟨sameId, other, kept wasSent⟩
    · obtain ⟨event, recordedEvent, isAsked⟩ := List.mem_filterMap.mp isLast
      obtain ⟨rfl, sameId⟩ := eq_sent_of_asked isAsked
      exact ⟨sameId, index, isNew recordedEvent⟩
  · intro other call message wasSent
    rcases mem_or_mem wasSent with earlier | isLast
    · exact List.mem_append_left _ (side.sent other call message earlier)
    · exact List.mem_append_right _ (List.mem_filterMap.mpr ⟨_, isLast, rfl⟩)
  · intro id value member
    rcases List.mem_append.mp member with earlier | isLast
    · obtain ⟨other, call, sameId, hasEnded⟩ := side.returned id value earlier
      exact ⟨other, call, sameId, kept hasEnded⟩
    · obtain ⟨event, recordedEvent, isReturned⟩ := List.mem_filterMap.mp isLast
      obtain ⟨call, rfl, sameId⟩ := eq_ended_of_returned isReturned
      exact ⟨index, call, sameId, isNew recordedEvent⟩
  · intro other call value hasEnded
    rcases mem_or_mem hasEnded with earlier | isLast
    · exact List.mem_append_left _ (side.ended other call value earlier)
    · exact List.mem_append_right _ (List.mem_filterMap.mpr ⟨_, isLast, rfl⟩)

/-- Clients do not depend on the server. -/
private theorem ClientSide.putServer (side : ClientSide events parties) (server : Server.State) :
    ClientSide events (parties.putServer server) :=
  ⟨side.asked, side.sent, side.returned, side.ended⟩

/-- Clients execute nothing. -/
private theorem ServerSide.append_client {server : Server.State} {taken more : List Str}
    (side : ServerSide env events server taken) (grows : taken ⊆ more)
    (recorded : List Client.Event) :
    ServerSide env (events ++ recorded.filterMap clientEvent) server more := by
  constructor
  · intro id outcome member
    rcases List.mem_append.mp member with earlier | isLast
    · obtain ⟨isTaken, isClosed⟩ := side.executed id outcome earlier
      exact ⟨grows isTaken, isClosed⟩
    · obtain ⟨event, _, shown⟩ := List.mem_filterMap.mp isLast
      cases event with
      | ended call outcome => cases outcome <;> cases shown
      | _ => cases shown
  · intro message res member
    refine (side.prepared message res member).imp_right fun found => ?_
    obtain ⟨table, invocation, executed, outcome⟩ := found
    exact ⟨table, invocation, List.mem_append_left _ executed, outcome⟩
  · intro envelope member
    obtain ⟨table, invocation, executed, conveys⟩ := side.published envelope member
    exact ⟨table, invocation, List.mem_append_left _ executed, conveys⟩

variable {taken : List Str} {config : Client.Config}

/-- A client asks once for each call, and a call returns once and what came of
its execution. -/
private theorem remoteCalls_client (lawful : env.json.Lawful) {client : Client.State}
    (calls : RemoteCalls callRules events) (side : ClientSide events parties)
    (served : ServerSide env events parties.server taken)
    (reachable : (Network.machine env site.config).Reachable parties)
    (reachableAfter : (Network.machine env site.config).Reachable (parties.putClient index client))
    {recorded : List Client.Event}
    (history : client.history = (parties.clients index).history ++ recorded)
    (shows : Client.Shows config (parties.clients index) recorded) :
    RemoteCalls callRules (events ++ recorded.filterMap clientEvent) := by
  have own := Network.client_reachable reachable index
  have once := Client.oncePerCall_of_reachable lawful own
  have distinct := (Client.consistent_of_reachable own).distinct
  have linked := Network.linked_of_reachable reachable
  have onlyHere : ∀ {other user : Nat} {call : Client.Call} {point : Client.CallPoint} {id : Str},
      (parties.clients index).users user = .call call point →
        id ∈ (parties.clients other).ids → id = call.id → other = index := by
    intro other user call point id inCall known same
    exact linked.apart other index id known (same ▸ distinct.known inCall)
  cases shows with
  | nothing notSent notEnded =>
      have silent : recorded.filterMap clientEvent = [] := by
        refine List.filterMap_eq_nil_iff.mpr ?_
        intro event member
        cases event with
        | sent call message => exact absurd member (notSent call message)
        | ended call outcome => exact absurd member (notEnded call outcome)
        | _ => rfl
      rw [silent, List.append_nil]
      exact calls
  | @sends user call body inCall =>
      refine Preceded.append_singleton calls ?_
      intro request asked
      obtain ⟨sameId, other, wasSent⟩ := side.asked _ _ asked
      have told := Client.callsTold_of_reachable lawful (Network.client_reachable reachable other)
      have known := told.ownIds.generated request.1 (Or.inr ⟨_, wasSent⟩)
      cases onlyHere inCall known sameId
      exact once.unsent user call _ inCall trivial request.1 request.2 wasSent sameId
  | @ends user call point outcome inCall =>
      cases outcome with
      | error fault =>
          show RemoteCalls callRules (events ++ [])
          rw [List.append_nil]
          exact calls
      | ok value =>
          refine Preceded.append_singleton calls ⟨?_, ?_⟩
          · intro other returned
            obtain ⟨owner, otherCall, sameId, hasEnded⟩ := side.returned _ _ returned
            have onceThere := Client.oncePerCall_of_reachable lawful
              (Network.client_reachable reachable owner)
            cases onlyHere inCall (onceThere.generated otherCall _ hasEnded) sameId
            exact once.unended user call point inCall otherCall _ hasEnded sameId
          · have hasEnded : .ended call (.ok value) ∈
                ((parties.putClient index client).clients index).history := by
              rw [Network.State.putClient_self, history]
              exact List.mem_append_right _ (List.mem_singleton_self _)
            obtain ⟨_, envelope, reply⟩ :=
              Network.returned_of_reachable lawful reachableAfter hasEnded
            obtain ⟨table, invocation, executed, conveys⟩ :=
              served.published envelope reply.published
            rw [reply.addressed] at executed
            rw [reply.read] at conveys
            exact ⟨_, executed, conveys⟩

end Client

section Server

/-- What a step of a worker shows with the calls that it records. -/
def workerShows (server : MessageQueueServer) (task : Task) (calls : List Invocation) :
    List SiteEvent :=
  (calls.map (WorkerCall.mk task)).filterMap (callEvent server)

/-- The step shows nothing, or the call of the function that the tables have for
the request. -/
inductive WorkerShown (server : MessageQueueServer) (task : Task) (calls : List Invocation) :
    List SiteEvent → Prop
  | nothing : WorkerShown server task calls []
  | call {message : Message} {meth : Str} {args : List Any} {invocation : Invocation} :
      task = .rpcCall message meth args → calls = [invocation] → task.Calls server invocation →
        WorkerShown server task calls [.executed message.correlationID (server, invocation)]

private theorem workerShown {server after : MessageQueueServer} {task : Task}
    {recorded : Recorded (List Task × List Envelope)}
    (worked : workStep env server task = (after, recorded)) :
    WorkerShown server task recorded.calls (workerShows server task recorded.calls) := by
  rcases workStep_calls env server task with nothing | ⟨invocation, same, calls⟩
  · rw [worked] at nothing
    rw [show recorded.calls = [] from nothing]
    exact WorkerShown.nothing
  · rw [worked] at same
    rw [show recorded.calls = [invocation] from same]
    cases task with
    | rpcCall message meth args => exact WorkerShown.call rfl rfl calls
    | _ => exact WorkerShown.nothing

theorem ClientSide.append_shown (side : ClientSide events parties) {server : MessageQueueServer}
    {task : Task} {calls : List Invocation} {shown : List SiteEvent}
    (isShown : WorkerShown server task calls shown) : ClientSide (events ++ shown) parties := by
  cases isShown with
  | nothing => exact (List.append_nil events).symm ▸ side
  | call isTask single calls => exact side.append_executed

variable {place : Nat} {task : Task} {taken : List Str} {calls : List Invocation}
  {shown : List SiteEvent}

/-- The worker at this place has the only open request with its id. -/
private theorem openId_erase (nodup : state.parties.server.inHand.Nodup)
    (found : state.parties.server.tasks[place]? = some task) {id : Str}
    (isOpen : task.requestId = some id) :
    id ∉ (state.parties.server.tasks.eraseIdx place).filterMap Task.openId := by
  have perm := Server.filterMap_eraseIdx Task.requestId found
  have nodupIds := perm.nodup_iff.mpr (List.nodup_append.mp nodup).1
  rw [isOpen] at nodupIds
  intro member
  obtain ⟨other, isOther, sameId⟩ := List.mem_filterMap.mp member
  refine (List.nodup_cons.mp nodupIds).1 (List.mem_filterMap.mpr ⟨other, isOther, ?_⟩)
  cases other with
  | rpc message => exact sameId
  | rpcCall message meth args => exact sameId
  | rpcReply message res => cases sameId
  | event eventType cbId eventData => cases sameId

private theorem mem_inHand (found : state.parties.server.tasks[place]? = some task) {id : Str}
    (hasId : task.requestId = some id) : id ∈ state.parties.server.inHand :=
  List.mem_append_left _ (List.mem_filterMap.mpr ⟨task, List.mem_of_getElem? found, hasId⟩)

/-- A function is called once for a request, with what its client has sent. -/
private theorem remoteCalls_work (lawful : env.json.Lawful) (sound : Sound env site state)
    (remote : RemoteCalls callRules events) (side : ClientSide events state.parties)
    (served : ServerSide env events state.parties.server taken)
    (found : state.parties.server.tasks[place]? = some task)
    (isShown : WorkerShown state.parties.server.server task calls shown) :
    RemoteCalls callRules (events ++ shown) := by
  cases isShown with
  | nothing => exact (List.append_nil events).symm ▸ remote
  | @call message meth args invocation isTask _ calls =>
      subst isTask
      have member := List.mem_of_getElem? found
      refine Preceded.append_singleton remote ⟨?_, ?_⟩
      · intro other executed
        exact (served.executed _ _ executed).2 (List.mem_filterMap.mpr ⟨_, member, rfl⟩)
      · have linked := Network.linked_of_reachable sound.reachable
        rcases linked.attributed.tasks _ member with ⟨_, _, _, impossible⟩ | ⟨asker, asked, works⟩
        · cases impossible
        · obtain ⟨index, call, sent⟩ := asked
          have isRequest := isRequest_of_sent lawful sound sent
          have isId := (replyTo_of_asked lawful sound.reachable sent).2
          cases works.stands with
          | @rpcCall finder _ _ _ looked =>
              rcases rpcFind_of_request isRequest finder with isCall | isReply
              · rw [isCall] at looked
                cases looked
                refine ⟨(call, message), ?_, calls⟩
                rw [isId]
                exact side.sent index call message sent
              · rw [isReply] at looked
                cases looked

/-- What was executed was taken, and is not open any more. -/
private theorem executed_work (served : ServerSide env events state.parties.server taken)
    (nodup : state.parties.server.inHand.Nodup) (known : state.parties.server.inHand ⊆ taken)
    (found : state.parties.server.tasks[place]? = some task)
    (isShown : WorkerShown state.parties.server.server task calls shown) {id : Str}
    {outcome : MessageQueueServer × Invocation}
    (executed : .executed id outcome ∈ events ++ shown) :
    id ∈ taken ∧ id ∉ (state.parties.server.tasks.eraseIdx place).filterMap Task.openId := by
  rcases List.mem_append.mp executed with earlier | isLast
  · obtain ⟨isTaken, isClosed⟩ := served.executed id outcome earlier
    refine ⟨isTaken, fun isOpen => isClosed ?_⟩
    exact ((List.eraseIdx_sublist _ place).filterMap Task.openId).subset isOpen
  · cases isShown with
    | nothing => cases isLast
    | call isTask single calls =>
        subst isTask
        cases List.mem_singleton.mp isLast
        exact ⟨known (mem_inHand found rfl), openId_erase nodup found rfl⟩

/-- A step of a worker, with what it shows.  Only a lookup leaves an open
request, and it executes nothing. -/
private theorem serverSide_work (lawful : env.json.Lawful) (sound : Sound env site state)
    (served : ServerSide env events state.parties.server taken)
    (nodup : state.parties.server.inHand.Nodup) (known : state.parties.server.inHand ⊆ taken)
    (found : state.parties.server.tasks[place]? = some task) {server : MessageQueueServer}
    {next : List Task} {published : List Envelope} {more : List WorkerCall}
    (worked : workStep env state.parties.server.server task =
      (server, ⟨calls, .ok (next, published)⟩)) :
    ServerSide env (events ++ workerShows state.parties.server.server task calls)
      { state.parties.server with
        server
        tasks := next ++ state.parties.server.tasks.eraseIdx place
        published := state.parties.server.published ++ published
        calls := more } taken := by
  have member := List.mem_of_getElem? found
  have linked := Network.linked_of_reachable sound.reachable
  have left := leaves_of_workStep (congrArg (fun worked => worked.2.outcome) worked)
  have isShown : WorkerShown state.parties.server.server task calls _ := workerShown worked
  have kept : ∀ {event}, event ∈ events →
      event ∈ events ++ workerShows state.parties.server.server task calls :=
    fun earlier => List.mem_append_left _ earlier
  constructor
  · intro id outcome executed
    obtain ⟨isTaken, isClosed⟩ := executed_work served nodup known found isShown executed
    refine ⟨isTaken, fun isOpen => ?_⟩
    rw [List.filterMap_append] at isOpen
    rcases List.mem_append.mp isOpen with isNew | isOld
    · cases left with
      | @looked message lookup looked =>
          have earlier : .executed id outcome ∈ events := by
            have noCalls : calls = [] := (congrArg (fun worked => worked.2.calls) worked).symm
            rw [noCalls] at executed
            exact (List.mem_append.mp executed).resolve_right List.not_mem_nil
          refine (served.executed id outcome earlier).2 (List.mem_filterMap.mpr ⟨_, member, ?_⟩)
          cases lookup with
          | call meth args =>
              rw [List.mem_singleton.mp isNew]
              rfl
          | reply res => cases isNew
      | called called => cases isNew
      | replied sent => cases isNew
      | handled => cases isNew
    · exact isClosed isOld
  · intro message res isTask
    rcases List.mem_append.mp isTask with isNew | isOld
    · cases left with
      | @looked asker lookup looked =>
          rcases linked.attributed.tasks _ member with ⟨_, _, _, impossible⟩ | ⟨_, asked, works⟩
          · cases impossible
          · obtain ⟨index, call, sent⟩ := asked
            cases works.stands
            have isRequest := isRequest_of_sent lawful sound sent
            rcases rpcFind_of_request isRequest state.parties.server.server with isCall | isReply
            · rw [isCall] at looked
              cases looked
              cases List.mem_singleton.mp isNew
            · rw [isReply] at looked
              cases looked
              cases List.mem_singleton.mp isNew
              exact Or.inl rfl
      | @called asker meth args outcome called =>
          cases List.mem_singleton.mp isNew
          obtain ⟨invocation, single, result⟩ := rpcCall_calls lawful called
          have sameCalls : calls = [invocation] :=
            (congrArg (fun worked => worked.2.calls) worked).symm.trans single
          refine Or.inr ⟨state.parties.server.server, invocation, List.mem_append_right _ ?_, result⟩
          rw [sameCalls]
          exact List.mem_singleton_self _
      | replied sent => cases isNew
      | handled => cases isNew
    · refine (served.prepared message res (List.mem_of_mem_eraseIdx isOld)).imp_right ?_
      intro found
      obtain ⟨table, invocation, executed, outcome⟩ := found
      exact ⟨table, invocation, kept executed, outcome⟩
  · intro envelope isPublished
    rcases List.mem_append.mp isPublished with isOld | isNew
    · obtain ⟨table, invocation, executed, conveys⟩ := served.published envelope isOld
      exact ⟨table, invocation, kept executed, conveys⟩
    · cases left with
      | @replied message res sentEnvelope sent =>
          cases List.mem_singleton.mp isNew
          rcases served.prepared message res member with
            isInitial | ⟨table, invocation, executed, outcome⟩
          · rw [isInitial, sendReply_initialRes lawful] at sent
            cases sent
          · have current := linked.attributed.mono (List.subset_cons_self
              state.parties.server.server state.parties.tables) fun _ asked => asked
            have ids := Server.inHand_workStep lawful List.mem_cons_self
              (current.tasks _ member) worked
            injection ids with sameId
            refine ⟨table, invocation, kept ?_, outcome.conveyed_eq lawful sent⟩
            rw [sameId]
            exact executed
      | looked looked => cases isNew
      | called called => cases isNew
      | handled => cases isNew

/-- A worker ends the process, with what its step shows. -/
private theorem serverSide_fault (served : ServerSide env events state.parties.server taken)
    (nodup : state.parties.server.inHand.Nodup) (known : state.parties.server.inHand ⊆ taken)
    (found : state.parties.server.tasks[place]? = some task)
    (isShown : WorkerShown state.parties.server.server task calls shown)
    (server : MessageQueueServer) (more : List WorkerCall) (fault : Fault) :
    ServerSide env (events ++ shown)
      { state.parties.server with
        server
        tasks := state.parties.server.tasks.eraseIdx place
        calls := more
        fault := some fault } taken := by
  constructor
  · exact fun id outcome executed => executed_work served nodup known found isShown executed
  · intro message res isTask
    refine (served.prepared message res (List.mem_of_mem_eraseIdx isTask)).imp_right ?_
    intro found
    obtain ⟨table, invocation, executed, outcome⟩ := found
    exact ⟨table, invocation, List.mem_append_left _ executed, outcome⟩
  · intro envelope isPublished
    obtain ⟨table, invocation, executed, conveys⟩ := served.published envelope isPublished
    exact ⟨table, invocation, List.mem_append_left _ executed, conveys⟩

end Server

/-- What was seen so far is a history of remote calls, and it agrees with what
the clients and the server have recorded. -/
structure Reflects (env : Env) (site : Site) (events : List SiteEvent) (state : State) : Prop where
  calls : RemoteCalls callRules events
  clients : ClientSide events state.parties
  server : ServerSide env events state.parties.server
    ((state.traffic.delivered site.rpcQueue).map Parcel.id)

section Runs

/-- A step of the server shows the calls that it adds. -/
private theorem serverShows_eq {task : Task} {calls : List Invocation}
    (added : after.parties.server.calls =
      state.parties.server.calls ++ calls.map (WorkerCall.mk task)) :
    serverShows state after = workerShows state.parties.server.server task calls := by
  rw [serverShows, added, List.drop_left]
  rfl

private theorem clientShows_eq {client : Client.State} {recorded : List Client.Event}
    (moved : after.parties = state.parties.putClient index client)
    (history : client.history = (state.parties.clients index).history ++ recorded) :
    clientShows state after index = recorded.filterMap clientEvent := by
  rw [clientShows, moved, Network.State.putClient_self, history, List.drop_left]

/-- A step of a client, or a reply to it. -/
private theorem Reflects.client (reflects : Reflects env site events state)
    (lawful : env.json.Lawful) (sound : Sound env site state) (soundAfter : Sound env site after)
    {clientAction : Client.Action} {client : Client.State}
    (stepped : Client.step env (site.config index) (state.parties.clients index) clientAction =
      some client)
    (moved : after.parties = state.parties.putClient index client)
    (taken : (state.traffic.delivered site.rpcQueue).map Parcel.id ⊆
      (after.traffic.delivered site.rpcQueue).map Parcel.id) :
    Reflects env site (events ++ clientShows state after index) after := by
  obtain ⟨recorded, history, shown⟩ := (Client.step_effect stepped).2.callsMove.shows
  rw [clientShows_eq moved history]
  constructor
  · exact remoteCalls_client lawful reflects.calls reflects.clients reflects.server
      sound.reachable (moved ▸ soundAfter.reachable) history shown
  · rw [moved]
    exact reflects.clients.putClient history
  · rw [moved]
    exact reflects.server.append_client taken recorded

/-- A request that reaches the server has an id that was not there before. -/
private theorem Reflects.request (reflects : Reflects env site events state)
    (lawful : env.json.Lawful) {trace : List Action}
    (run : (machine env site).Run (Addressed site) trace state) {parcel : Parcel}
    {rest : List Parcel}
    (front : state.traffic.broker.contents site.rpcQueue = parcel :: rest) :
    ServerSide env events
      { state.parties.server with tasks := .rpc parcel.message :: state.parties.server.tasks }
      ((state.traffic.delivered site.rpcQueue ++ [parcel]).map Parcel.id) := by
  have nodup := nodup_arrived lawful run
  rw [Traffic.arrived, front, List.map_append] at nodup
  constructor
  · intro id outcome executed
    obtain ⟨isTaken, isClosed⟩ := reflects.server.executed id outcome executed
    refine ⟨?_, fun isOpen => ?_⟩
    · rw [List.map_append]
      exact List.mem_append_left _ isTaken
    · rcases List.mem_cons.mp isOpen with isNew | isOld
      · have same : parcel.id = id := isNew.symm
        exact (List.nodup_append.mp nodup).2.2 id isTaken parcel.id List.mem_cons_self same.symm
      · exact isClosed isOld
  · intro message res member
    rcases List.mem_cons.mp member with impossible | isOld
    · cases impossible
    · exact reflects.server.prepared message res isOld
  · exact reflects.server.published

private theorem ServerSide.eventMessage {server : Server.State} {taken more : List Str}
    {body : Str} {tasks : List Task} (served : ServerSide env events server taken)
    (grows : taken ⊆ more) (received : onEventMessage env server.server body = .ok tasks) :
    ServerSide env events { server with tasks := tasks ++ server.tasks } more := by
  obtain ⟨_, eventType, eventData, _, _, _, rfl⟩ := onEventMessage_eq_ok.mp received
  constructor
  · intro id outcome executed
    obtain ⟨isTaken, isClosed⟩ := served.executed id outcome executed
    refine ⟨grows isTaken, fun isOpen => isClosed ?_⟩
    rw [List.filterMap_append] at isOpen
    rcases List.mem_append.mp isOpen with isNew | isOld
    · obtain ⟨task, member, isId⟩ := List.mem_filterMap.mp isNew
      obtain ⟨_, _, rfl⟩ := List.mem_map.mp member
      cases isId
    · exact isOld
  · intro message res member
    rcases List.mem_append.mp member with isNew | isOld
    · obtain ⟨_, _, impossible⟩ := List.mem_map.mp isNew
      cases impossible
    · exact served.prepared message res isOld
  · exact served.published

private theorem Reflects.next (reflects : Reflects env site events state)
    (lawful : env.json.Lawful) {trace : List Action}
    (run : (machine env site).Run (Addressed site) trace state)
    (allowed : Addressed site state action) (stepped : step env site state action = some after) :
    Reflects env site (events ++ shows state action after) after := by
  have sound := sound_of_run lawful run
  have soundAfter := sound_of_run lawful (run.next allowed stepped)
  have once := servedOnce_of_run lawful run
  have known : state.parties.server.inHand ⊆
      (state.traffic.delivered site.rpcQueue).map Parcel.id := fun id => once.delivered id
  have effect := step_effect stepped
  have taken : (state.traffic.delivered site.rpcQueue).map Parcel.id ⊆
      (after.traffic.delivered site.rpcQueue).map Parcel.id :=
    ((delivered_grows effect site.rpcQueue).map Parcel.id).subset
  have silent : shows state action after = [] → Reflects env site events after →
      Reflects env site (events ++ shows state action after) after := by
    intro nothing same
    rw [nothing, List.append_nil]
    exact same
  cases effect with
  | handle next handled => exact silent rfl ⟨reflects.calls, reflects.clients, reflects.server⟩
  | refuse next refused => exact silent rfl ⟨reflects.calls, reflects.clients, reflects.server⟩
  | start ready => exact silent rfl ⟨reflects.calls, reflects.clients, reflects.server⟩
  | client notDelivery fresh isRunning isGranted moved =>
      exact reflects.client lawful sound soundAfter moved rfl taken
  | reply connection queue delivers moved =>
      exact reflects.client lawful sound soundAfter moved rfl taken
  | @request consumer parcel tag broker server connection queue delivers moved =>
      refine silent rfl ⟨reflects.calls, reflects.clients.putServer server, ?_⟩
      have front := delivers.front
      rw [queue] at front
      cases (Server.step_effect moved).2 with
      | rpcMessage message =>
          show ServerSide env events _
            (((state.traffic.delivering consumer.queue parcel broker).delivered site.rpcQueue).map
              Parcel.id)
          rw [queue, Traffic.delivered_delivering_self]
          exact reflects.request lawful run front
  | @event consumer parcel tag broker server connection queue delivers moved =>
      refine silent rfl ⟨reflects.calls, reflects.clients.putServer server, ?_⟩
      cases (Server.step_effect moved).2 with
      | eventMessage received => exact reflects.server.eventMessage taken received
      | eventMessageFault received =>
          refine ⟨fun id outcome executed => ?_, reflects.server.prepared,
            reflects.server.published⟩
          obtain ⟨isTaken, isClosed⟩ := reflects.server.executed id outcome executed
          exact ⟨taken isTaken, isClosed⟩
  | @server serverAction server notMessage moved =>
      have same := reflects.server
      cases (Server.step_effect moved).2 with
      | rpcMessage message => cases notMessage
      | eventMessage received => cases notMessage
      | eventMessageFault received => cases notMessage
      | @work place task server calls next published found worked =>
          have isShown : WorkerShown state.parties.server.server task calls _ := workerShown worked
          rw [shows, serverShows_eq rfl]
          exact ⟨remoteCalls_work lawful sound reflects.calls reflects.clients reflects.server found
              isShown,
            (reflects.clients.append_shown isShown).putServer _,
            serverSide_work lawful sound reflects.server once.workers known found worked⟩
      | @workFault place task server calls fault found worked =>
          have isShown : WorkerShown state.parties.server.server task calls _ := workerShown worked
          rw [shows, serverShows_eq rfl]
          exact ⟨remoteCalls_work lawful sound reflects.calls reflects.clients reflects.server found
              isShown,
            (reflects.clients.append_shown isShown).putServer _,
            serverSide_fault reflects.server once.workers known found isShown server _ fault⟩
      | _ =>
          refine silent ?_ ⟨reflects.calls, reflects.clients.putServer _,
            ⟨same.executed, same.prepared, same.published⟩⟩
          exact congrArg (List.filterMap _) (List.drop_length ..)

theorem reflects_of_run (lawful : env.json.Lawful) {trace : List Action}
    (run : (machine env site).Run (Addressed site) trace state) :
    Reflects env site (callHistory env site trace) state := by
  refine run.invariant (fun trace => Reflects env site (callHistory env site trace)) ?_ ?_
  · refine ⟨Preceded.nil, ⟨nofun, ?_, nofun, ?_⟩, ⟨nofun, nofun, nofun⟩⟩
    · intro _ _ _ impossible
      cases impossible
    · intro _ _ _ impossible
      cases impossible
  · intro _ _ _ _ earlier reflects allowed stepped
    rw [callHistory, earlier.observe_next stepped]
    exact reflects.next lawful earlier allowed stepped

/-- The id of a request and the call of a worker for it. -/
def requestCall (call : WorkerCall) : Option (Str × Invocation) :=
  match call.worker with
  | .rpcCall message _ _ => some (message.correlationID, call.invocation)
  | _ => none

/-- The calls that the history shows for requests. -/
def executions (events : List SiteEvent) : List (Str × Invocation) :=
  (events.filterMap CallEvent.execution).map fun execution => (execution.1, execution.2.2)

private theorem executions_append (events more : List SiteEvent) :
    executions (events ++ more) = executions events ++ executions more := by
  rw [executions, List.filterMap_append, List.map_append]
  rfl

private theorem executions_clientShows (before after : State) (index : Nat) :
    executions (clientShows before after index) = [] := by
  rw [executions, clientShows, List.filterMap_filterMap, List.map_eq_nil_iff,
    List.filterMap_eq_nil_iff]
  intro event _
  cases event with
  | ended call outcome => cases outcome <;> rfl
  | _ => rfl

private theorem executions_calls (server : MessageQueueServer) (calls : List WorkerCall) :
    executions (calls.filterMap (callEvent server)) = calls.filterMap requestCall := by
  rw [executions, List.filterMap_filterMap, List.map_filterMap]
  refine List.filterMap_congr ?_
  intro call _
  obtain ⟨worker, invocation⟩ := call
  cases worker <;> rfl

/-- A step shows the calls for requests that its worker records. -/
private theorem executions_shows (effect : Effect env site state action after) :
    after.parties.server.calls.filterMap requestCall =
      state.parties.server.calls.filterMap requestCall ++
        executions (shows state action after) := by
  have still : after.parties.server.calls = state.parties.server.calls →
      executions (shows state action after) = [] →
        after.parties.server.calls.filterMap requestCall =
          state.parties.server.calls.filterMap requestCall ++
            executions (shows state action after) := by
    intro same nothing
    rw [same, nothing, List.append_nil]
  cases effect with
  | handle next handled => exact still rfl rfl
  | refuse next refused => exact still rfl rfl
  | start ready => exact still rfl rfl
  | client notDelivery fresh isRunning isGranted moved =>
      exact still rfl (executions_clientShows _ _ _)
  | reply connection queue delivers moved => exact still rfl (executions_clientShows _ _ _)
  | request connection queue delivers moved =>
      cases (Server.step_effect moved).2 with
      | rpcMessage message => exact still rfl rfl
  | event connection queue delivers moved =>
      cases (Server.step_effect moved).2 with
      | eventMessage received => exact still rfl rfl
      | eventMessageFault received => exact still rfl rfl
  | @server serverAction server notMessage moved =>
      obtain ⟨more, grown⟩ := Server.calls_grows moved
      show server.calls.filterMap requestCall = _
      rw [← grown, List.filterMap_append, shows, serverShows]
      show _ = _ ++ executions ((server.calls.drop _).filterMap _)
      rw [executions_calls, ← grown, List.drop_left]

private theorem executions_of_run {trace : List Action} {guard : State → Action → Prop}
    (run : (machine env site).Run guard trace state) :
    state.parties.server.calls.filterMap requestCall =
      executions (callHistory env site trace) := by
  refine run.invariant (fun trace state => state.parties.server.calls.filterMap requestCall =
    executions (callHistory env site trace)) rfl ?_
  intro _ _ _ _ earlier same _ stepped
  rw [callHistory, earlier.observe_next stepped, executions_append,
    executions_shows (step_effect stepped), same]
  rfl

/-- The history of the run is one of remote calls, and shows the requests that
clients have sent, the calls that workers have recorded and the values that calls
have returned to their users. -/
structure CarriesCalls (env : Env) (site : Site) (trace : List Action) (state : State) : Prop where
  calls : RemoteCalls callRules (callHistory env site trace)
  recorded : state.parties.server.calls.filterMap requestCall =
    executions (callHistory env site trace)
  asked : ∀ call message, .asked call.id (call, message) ∈ callHistory env site trace ↔
    ∃ index, .sent call message ∈ (state.parties.clients index).history
  returned : ∀ id value, .returned id value ∈ callHistory env site trace ↔
    ∃ index call, call.id = id ∧ .ended call (.ok value) ∈ (state.parties.clients index).history

/-- Whatever the order of its threads, workers and deliveries, a run carries
remote calls. -/
theorem run_carries_calls (lawful : env.json.Lawful) {trace : List Action}
    (run : (machine env site).Run (Addressed site) trace state) :
    CarriesCalls env site trace state := by
  have reflects := reflects_of_run lawful run
  refine ⟨reflects.calls, executions_of_run run, ?_, ?_⟩
  · intro call message
    constructor
    · exact fun asked => (reflects.clients.asked _ _ asked).2
    · intro found
      obtain ⟨index, wasSent⟩ := found
      exact reflects.clients.sent index call message wasSent
  · intro id value
    constructor
    · exact reflects.clients.returned id value
    · intro found
      obtain ⟨index, call, rfl, hasEnded⟩ := found
      exact reflects.clients.ended index call value hasEnded

theorem run_carries_calls_exampleRun :
    ∃ state, (machine ⟨codec, false⟩ exampleNames.site).Run (Addressed exampleNames.site)
        exampleRun state ∧
      CarriesCalls ⟨codec, false⟩ exampleNames.site exampleRun state := by
  obtain ⟨state, run, _⟩ := exampleRun_reaches
  exact ⟨state, run, run_carries_calls codec_lawful run⟩

/-- The calls of a run could have been made one after the other, in the order in
which workers have called the functions. -/
theorem executions_linearize (lawful : env.json.Lawful) {trace : List Action}
    (run : (machine env site).Run (Addressed site) trace state) :
    Linearizes callRules (callHistory env site trace)
      ((callHistory env site trace).filterMap CallEvent.execution) :=
  (reflects_of_run lawful run).calls.linearizes

theorem executions_linearize_exampleRun :
    ∃ state, (machine ⟨codec, false⟩ exampleNames.site).Run (Addressed exampleNames.site)
        exampleRun state ∧
      Linearizes callRules
        (callHistory ⟨codec, false⟩ exampleNames.site exampleRun)
        ((callHistory ⟨codec, false⟩ exampleNames.site exampleRun).filterMap
          CallEvent.execution) := by
  obtain ⟨state, run, _⟩ := exampleRun_reaches
  exact ⟨state, run, executions_linearize codec_lawful run⟩

/-- The function of the call was called once, on what the call has sent, and
the value was read from what it gave. -/
structure OneExecution (env : Env) (site : Site) (trace : List Action) (state : State)
    (index : Nat) (call : Client.Call) (value : Json) : Prop where
  once : ((callHistory env site trace).filterMap CallEvent.executedId).count call.id = 1
  outcome : ∃ message outcome, .sent call message ∈ (state.parties.clients index).history ∧
    .executed call.id outcome ∈ callHistory env site trace ∧
      callRules.performs (call, message) outcome ∧ callRules.yields outcome value

/-- A call that has returned a value had one execution in the run. -/
theorem returned_of_one_execution (lawful : env.json.Lawful) {trace : List Action}
    (run : (machine env site).Run (Addressed site) trace state) {call : Client.Call}
    {value : Json} (ended : .ended call (.ok value) ∈ (state.parties.clients index).history) :
    OneExecution env site trace state index call value := by
  have reflects := reflects_of_run lawful run
  obtain ⟨body, envelope, own⟩ :=
    Network.returned_of_reachable lawful (sound_of_run lawful run).reachable ended
  obtain ⟨request, outcome, asked, executed, performs, yields⟩ :=
    reflects.calls.of_returned (reflects.clients.ended index call value ended)
  cases reflects.calls.asked_unique asked (reflects.clients.sent index call _ own.sent)
  refine ⟨?_, _, outcome, own.sent, executed, performs, yields⟩
  refine List.count_eq_one_of_mem reflects.calls.executedIds_nodup ?_
  exact List.mem_filterMap.mpr ⟨_, executed, rfl⟩

/-- The call of the example has its function called once, on its argument. -/
theorem returned_of_one_execution_exampleRun :
    ∃ state call value, (machine ⟨codec, false⟩ exampleNames.site).Run
      (Addressed exampleNames.site) exampleRun state ∧
        OneExecution ⟨codec, false⟩ exampleNames.site exampleRun state 0 call value := by
  obtain ⟨state, run, delivered, _⟩ := exampleRun_reaches
  obtain ⟨call, value, ended⟩ := exists_of_allDelivered delivered
  exact ⟨state, call, value, run, returned_of_one_execution codec_lawful run ended⟩

end Runs

end Deployment

end Ccmqsrv
