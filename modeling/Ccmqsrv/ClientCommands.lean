import Ccmqsrv.CallHistory
import Ccmqsrv.PublishOrder

/-!
# The commands of a client

A client gives its commands one after the other on one channel: its publishers
declare and bind queues and publish events, and its callers publish requests.
What a command refers to is there when its turn comes.  The event is a text
that `publish` dumped, and no two requests have the same id.
-/

namespace Ccmqsrv

open Foundations

namespace Client

/-- What the threads of a client use it for: the routing keys of calls and of
events. -/
structure Usage where
  asks : Str → Prop
  admits : Str → Prop

/-- The use of the client is as described.  Arguments and event data are values
of `json`. -/
def Addresses (usage : Usage) : State → Action → Prop
  | _, .call _ routingKey _ args _ =>
      usage.asks routingKey ∧ ∀ argument ∈ args, argument.WellFormed
  | _, .publish _ routingKey _ eventData => usage.admits routingKey ∧ eventData.WellFormed
  | _, _ => True

/-- Keys of any kind. -/
def anyUsage : Usage where
  asks := fun _ => True
  admits := fun _ => True

theorem Addresses.any {usage : Usage} {state : State} {action : Action}
    (addresses : Addresses usage state action) : Addresses anyUsage state action := by
  cases action with
  | call user routingKey meth args uuid => exact ⟨trivial, addresses.2⟩
  | publish user routingKey evtType eventData => exact ⟨trivial, addresses.2⟩
  | _ => trivial

/-- The text that `publish` dumps. -/
def EventText (env : Env) (data : Str) : Prop :=
  ∃ evtType eventData, eventData.WellFormed ∧
    jsonDump env (.array [.string evtType, eventData]) = .ok data

/-- What a command refers to, and what was commanded before it. -/
def Proper (env : Env) (config : Config) (usage : Usage) (before : List Command) :
    Command → Prop
  | .declareQueue queue => usage.admits queue
  | .bindQueue exchange queue routingKey =>
      exchange = config.eventExchange ∧ queue = routingKey ∧ usage.admits routingKey ∧
        .declareQueue routingKey ∈ before
  | .publish exchange routingKey message =>
      exchange = config.eventExchange ∧ usage.admits routingKey ∧
          Bound config before routingKey ∧ EventText env message.body ∨
        exchange = config.rpcExchange ∧ usage.asks routingKey

/-- The call has not sent its request. -/
def CallPoint.BeforeSend : CallPoint → Prop
  | .register => True
  | .registering => True
  | .encode => True
  | .send _ => True
  | .sending _ => True
  | _ => False

/-- A thread goes on without a command. -/
inductive Continues : Activity → Activity → Prop
  | call {call : Call} {point next : CallPoint} : (next.BeforeSend → point.BeforeSend) →
      Continues (.call call point) (.call call next)
  | publish {routingKey data : Str} {point next : PublishPoint} :
      Continues (.publish routingKey data point) (.publish routingKey data next)
  | ends {activity : Activity} : Continues activity .idle

/-- A thread gives a command. -/
inductive Issues (config : Config) : Activity → Command → Activity → Prop
  | declare {routingKey data : Str} :
      Issues config (.publish routingKey data .declare) (.declareQueue routingKey)
        (.publish routingKey data .bind)
  | bind {routingKey data : Str} :
      Issues config (.publish routingKey data .bind)
        (.bindQueue config.eventExchange routingKey routingKey)
        (.publish routingKey data .insert)
  | event {routingKey data : Str} :
      Issues config (.publish routingKey data .sending)
        (.publish config.eventExchange routingKey
          { body := data, correlationID := [], replyTo := [] }) .idle
  | request {call : Call} {body : Str} :
      Issues config (.call call (.sending body))
        (.publish config.rpcExchange call.routingKey (requestMessage config call body))
        (.call call .await)

/-- What a step does to the threads and to the commands. -/
inductive ThreadMove (env : Env) (config : Config) (state : State) (action : Action)
    (after : State) : Prop
  | still : after.users = state.users → after.commands = state.commands →
      ThreadMove env config state action after
  | callBegins {user : Nat} {call : Call} {uuid : Str} :
      action = .call user call.routingKey call.meth call.args uuid → call.id ∉ state.ids →
        after.users = Function.update state.users user (.call call .register) →
          after.commands = state.commands → ThreadMove env config state action after
  | publishBegins {user : Nat} {routingKey evtType data : Str} {eventData : Json} :
      action = .publish user routingKey evtType eventData →
        jsonDump env (.array [.string evtType, eventData]) = .ok data →
          after.users = Function.update state.users user (.publish routingKey data .find) →
            after.commands = state.commands → ThreadMove env config state action after
  | continues {user : Nat} {activity : Activity} : Continues (state.users user) activity →
      after.users = Function.update state.users user activity →
        after.commands = state.commands → ThreadMove env config state action after
  | issues {user : Nat} {command : Command} {activity : Activity} :
      Issues config (state.users user) command activity →
        after.users = Function.update state.users user activity →
          after.commands = state.commands ++ [command] →
            (∀ call body, state.users user = .call call (.sending body) →
              .sent call (requestMessage config call body) ∈ after.history) →
                ThreadMove env config state action after

variable {env : Env} {config : Config} {usage : Usage} {state after : State} {action : Action}
  {user : Nat}

private theorem threadMove_subscript (id : Str) :
    ThreadMove env config state action (state.subscript id).undefined := by
  obtain ⟨reqEvents, same⟩ := state.subscript_eq id
  rw [same]
  exact ThreadMove.still rfl rfl

private theorem CallEffect.threadMove {call : Call} {point : CallPoint}
    (inCall : state.users user = .call call point)
    (effect : CallEffect env config state user call point after) :
    ThreadMove env config state action after := by
  have goesOn : ∀ {next : CallPoint}, (next.BeforeSend → point.BeforeSend) →
      Continues (state.users user) (.call call next) := by
    intro next earlier
    rw [inCall]
    exact Continues.call earlier
  cases effect with
  | send =>
      refine ThreadMove.issues (inCall ▸ Issues.request) rfl rfl ?_
      intro other body sending
      rw [inCall] at sending
      cases sending
      exact List.mem_append_right _ (List.mem_singleton_self _)
  | lookupNull missing => exact threadMove_subscript call.id
  | getDestroyed notThrew missing => exact ThreadMove.still rfl rfl
  | encodeFault failed => exact ThreadMove.continues Continues.ends rfl rfl
  | throw => exact ThreadMove.continues Continues.ends rfl rfl
  | finish => exact ThreadMove.continues Continues.ends rfl rfl
  | lockRegister free => exact ThreadMove.continues (goesOn fun _ => trivial) rfl rfl
  | register => exact ThreadMove.continues (goesOn fun _ => trivial) rfl rfl
  | encode encoded => exact ThreadMove.continues (goesOn fun _ => trivial) rfl rfl
  | lockSend free => exact ThreadMove.continues (goesOn fun _ => trivial) rfl rfl
  | _ => exact ThreadMove.continues (goesOn False.elim) rfl rfl

private theorem PublishEffect.threadMove {routingKey data : Str} {point : PublishPoint}
    (publishing : state.users user = .publish routingKey data point)
    (effect : PublishEffect config state user routingKey data point after) :
    ThreadMove env config state action after := by
  have goesOn : ∀ {next : PublishPoint},
      Continues (state.users user) (.publish routingKey data next) := by
    intro next
    rw [publishing]
    exact Continues.publish
  have noCall : ∀ call body, state.users user ≠ .call call (.sending body) := by
    intro call body inCall
    rw [publishing] at inCall
    cases inCall
  cases effect with
  | declare =>
      exact ThreadMove.issues (publishing ▸ Issues.declare) rfl rfl
        fun call body inCall => absurd inCall (noCall call body)
  | bind =>
      exact ThreadMove.issues (publishing ▸ Issues.bind) rfl rfl
        fun call body inCall => absurd inCall (noCall call body)
  | send =>
      exact ThreadMove.issues (publishing ▸ Issues.event) rfl rfl
        fun call body inCall => absurd inCall (noCall call body)
  | _ => exact ThreadMove.continues goesOn rfl rfl

/-- Where the text of an event comes from. -/
private theorem step_publish {routingKey evtType : Str} {eventData : Json}
    (stepped : step env config state (.publish user routingKey evtType eventData) = some after) :
    ThreadMove env config state (.publish user routingKey evtType eventData) after := by
  obtain ⟨_, ⟨data, dumped, rfl⟩ | ⟨fault, rfl⟩⟩ := step_publish_cases stepped
  · exact ThreadMove.publishBegins rfl dumped rfl rfl
  · exact ThreadMove.still rfl rfl

theorem threadMove_of_step (stepped : step env config state action = some after) :
    ThreadMove env config state action after := by
  have effect := (step_effect stepped).2
  cases effect with
  | call begun idle fresh =>
      subst begun
      exact ThreadMove.callBegins rfl fresh rfl rfl
  | publish idle => exact step_publish stepped
  | callStep inCall effect => exact effect.threadMove inCall
  | publishStep publishing effect => exact effect.threadMove publishing
  | loopStep effect =>
      generalize state.loop = point at effect
      cases effect with
      | lookupNull missing => exact threadMove_subscript _
      | _ => exact ThreadMove.still rfl rfl
  | wake inCall found =>
      refine ThreadMove.continues ?_ rfl rfl
      rw [inCall]
      exact Continues.call False.elim
  | wakePublisher publishing =>
      refine ThreadMove.continues ?_ rfl rfl
      rw [publishing]
      exact Continues.publish
  | _ => exact ThreadMove.still rfl rfl

theorem commands_grows (stepped : step env config state action = some after) :
    state.commands <+: after.commands := by
  cases threadMove_of_step stepped with
  | issues issued users commands sent => exact ⟨_, commands.symm⟩
  | still users commands => exact ⟨[], by rw [commands, List.append_nil]⟩
  | callBegins isCall fresh users commands => exact ⟨[], by rw [commands, List.append_nil]⟩
  | publishBegins isPublish dumped users commands =>
      exact ⟨[], by rw [commands, List.append_nil]⟩
  | continues goesOn users commands => exact ⟨[], by rw [commands, List.append_nil]⟩

/-- A delivery gives no command and sends nothing. -/
theorem deliver_frame {response : Response}
    (stepped : step env config state (.deliver response) = some after) :
    after.commands = state.commands ∧
      ∀ call message, .sent call message ∈ after.history → .sent call message ∈ state.history := by
  have old : ∀ {found : Bool} {call : Call} {message : Message},
      .sent call message ∈ state.history ++ [.delivered response found] →
        .sent call message ∈ state.history := by
    intro found call message member
    rcases List.mem_append.mp member with earlier | isLast
    · exact earlier
    · cases List.mem_singleton.mp isLast
  cases (step_effect stepped).2 with
  | deliver idle found => exact ⟨rfl, fun _ _ => old⟩
  | deliverUnknown idle missing => exact ⟨rfl, fun _ _ => old⟩

/-- The routing key, with the arguments or the text of an event, that a thread
has in hand. -/
def Activity.Uses (env : Env) (usage : Usage) : Activity → Prop
  | .idle => True
  | .call asked _ =>
      usage.asks asked.routingKey ∧ ∀ argument ∈ asked.args, argument.WellFormed
  | .publish routingKey data _ => usage.admits routingKey ∧ EventText env data

/-- What the threads have in hand is as described, and arguments that were sent
are values. -/
structure UsedAs (env : Env) (usage : Usage) (state : State) : Prop where
  users : ∀ user, (state.users user).Uses env usage
  formed : ∀ call message, .sent call message ∈ state.history →
    ∀ argument ∈ call.args, argument.WellFormed

/-- Every command is proper where it was given. -/
structure CommandsProper (env : Env) (config : Config) (usage : Usage) (state : State) : Prop
    extends UsedAs env usage state where
  first : QueuesFirst config state
  commands : Preceded (Proper env config usage) state.commands

private theorem Continues.uses {activity next : Activity} (continues : Continues activity next)
    (uses : activity.Uses env usage) : next.Uses env usage := by
  cases continues with
  | call => exact uses
  | publish => exact uses
  | ends => trivial

private theorem Issues.uses {activity next : Activity} {command : Command}
    (issues : Issues config activity command next) (uses : activity.Uses env usage) :
    next.Uses env usage := by
  cases issues with
  | event => trivial
  | _ => exact uses

/-- A command is proper when its thread gives it. -/
private theorem Issues.proper {activity next : Activity} {command : Command}
    {before : List Command} (issues : Issues config activity command next)
    (uses : activity.Uses env usage) (commanded : activity.Commanded config before) :
    Proper env config usage before command := by
  cases issues with
  | declare => exact uses.1
  | bind => exact ⟨rfl, rfl, uses.1, commanded⟩
  | event => exact Or.inl ⟨rfl, uses.1, commanded, uses.2⟩
  | @request call body =>
      obtain ⟨asks, _⟩ : usage.asks call.routingKey ∧ _ := uses
      exact Or.inr ⟨rfl, asks⟩

private theorem uses_update {users : Nat → Activity} {activity : Activity}
    (uses : ∀ user, (users user).Uses env usage) (own : activity.Uses env usage) (other : Nat) :
    (Function.update users user activity other).Uses env usage := by
  by_cases same : other = user
  · rw [same, Function.update_self]
    exact own
  · rw [Function.update_of_ne same]
    exact uses other

theorem UsedAs.next (used : UsedAs env usage state) (addresses : Addresses usage state action)
    (stepped : step env config state action = some after) : UsedAs env usage after := by
  constructor
  · cases threadMove_of_step stepped with
    | still users commands => exact users ▸ used.users
    | callBegins isCall fresh users commands =>
        subst isCall
        rw [users]
        refine uses_update used.users ?_
        exact addresses
    | publishBegins isPublish dumped users commands =>
        subst isPublish
        rw [users]
        obtain ⟨admits, wellFormed⟩ := addresses
        refine uses_update used.users ?_
        exact ⟨admits, _, _, wellFormed, dumped⟩
    | continues goesOn users commands =>
        rw [users]
        exact uses_update used.users (goesOn.uses (used.users _))
    | @issues user command activity issued users commands sent =>
        rw [users]
        exact uses_update used.users (issued.uses (used.users user))
  · intro call message sent
    rcases (step_effect stepped).2.callsMove.sent_before sent with earlier | ⟨user, body, inCall, _⟩
    · exact used.formed call message earlier
    · have uses := used.users user
      rw [inCall] at uses
      exact uses.2

theorem usedAs_of_run {trace : List Action}
    (run : (machine env config).Run (Addresses usage) trace state) : UsedAs env usage state := by
  refine run.invariant (fun _ state => UsedAs env usage state) ?_ ?_
  · exact ⟨fun _ => trivial, nofun⟩
  · intro _ _ _ _ _ used addresses stepped
    exact used.next addresses stepped

theorem CommandsProper.next (proper : CommandsProper env config usage state)
    (apart : config.rpcExchange ≠ config.eventExchange)
    (addresses : Addresses usage state action)
    (stepped : step env config state action = some after) :
    CommandsProper env config usage after := by
  have requestsApart : RequestsApart config state action := by
    cases action with
    | call user routingKey meth args uuid => exact apart
    | _ => trivial
  have first := proper.first.next requestsApart (step_effect stepped).2
  refine ⟨proper.toUsedAs.next addresses stepped, first, ?_⟩
  cases threadMove_of_step stepped with
  | still users commands => exact commands ▸ proper.commands
  | callBegins isCall fresh users commands => exact commands ▸ proper.commands
  | publishBegins isPublish dumped users commands => exact commands ▸ proper.commands
  | continues goesOn users commands => exact commands ▸ proper.commands
  | @issues user command activity issued users commands sent =>
      rw [commands]
      exact proper.commands.append_singleton
        (issued.proper (proper.users user) (proper.first.users user))

theorem commandsProper_of_run {trace : List Action}
    (apart : config.rpcExchange ≠ config.eventExchange)
    (run : (machine env config).Run (Addresses usage) trace state) :
    CommandsProper env config usage state := by
  refine run.invariant (fun _ state => CommandsProper env config usage state) ?_ ?_
  · exact ⟨⟨fun _ => trivial, nofun⟩, ⟨nofun, fun _ => trivial, Preceded.nil⟩, Preceded.nil⟩
  · intro _ _ _ _ _ proper addresses stepped
    exact proper.next apart addresses stepped

/-- The id of the request that a command publishes. -/
def Command.requestId (config : Config) : Command → Option Str
  | .publish exchange _ message =>
      if exchange = config.rpcExchange then some message.correlationID else none
  | _ => none

/-- Every request has an id of its own and was recorded when it was sent. -/
structure RequestsOnce (config : Config) (state : State) : Prop where
  once : (state.commands.filterMap (Command.requestId config)).Nodup
  generated : ∀ id ∈ state.commands.filterMap (Command.requestId config), id ∈ state.ids
  unsent : ∀ user call point, state.users user = .call call point → point.BeforeSend →
    call.id ∉ state.commands.filterMap (Command.requestId config)
  recorded : ∀ routingKey message,
    .publish config.rpcExchange routingKey message ∈ state.commands →
      ∃ call, call.routingKey = routingKey ∧ .sent call message ∈ state.history

private theorem Issues.requestId_eq (apart : config.rpcExchange ≠ config.eventExchange)
    {activity next : Activity} {command : Command} (issues : Issues config activity command next) :
    command.requestId config = none ∧ (∀ call point, activity ≠ .call call point) ∨
      ∃ call body, activity = .call call (.sending body) ∧
        command = .publish config.rpcExchange call.routingKey (requestMessage config call body) ∧
          command.requestId config = some call.id := by
  cases issues with
  | request => exact Or.inr ⟨_, _, rfl, rfl, if_pos rfl⟩
  | event => exact Or.inl ⟨if_neg apart.symm, nofun⟩
  | declare => exact Or.inl ⟨rfl, nofun⟩
  | bind => exact Or.inl ⟨rfl, nofun⟩

/-- After its command a call waits for the reply. -/
private theorem Issues.not_beforeSend {activity : Activity} {command : Command} {call : Call}
    {point : CallPoint} (issues : Issues config activity command (.call call point)) :
    ¬ point.BeforeSend := by
  cases issues
  exact id

theorem RequestsOnce.next (requests : RequestsOnce config state)
    (apart : config.rpcExchange ≠ config.eventExchange) (distinct : DistinctIds state)
    (stepped : step env config state action = some after) : RequestsOnce config after := by
  have effect := (step_effect stepped).2
  have ids := effect.callsChange.ids_subset
  have history := effect.callsMove.history_subset
  have quiet : after.commands = state.commands →
      (∀ user call point, after.users user = .call call point → point.BeforeSend →
        call.id ∉ state.commands.filterMap (Command.requestId config)) →
          RequestsOnce config after := by
    intro commands unsent
    constructor
    · rw [commands]
      exact requests.once
    · rw [commands]
      exact fun id member => ids (requests.generated id member)
    · rw [commands]
      exact unsent
    · rw [commands]
      intro routingKey message published
      obtain ⟨call, sameKey, sent⟩ := requests.recorded routingKey message published
      exact ⟨call, sameKey, history sent⟩
  cases threadMove_of_step stepped with
  | still users commands =>
      refine quiet commands ?_
      rw [users]
      exact requests.unsent
  | @callBegins user begun uuid isCall fresh users commands =>
      refine quiet commands ?_
      intro other call point inCall before
      rw [users] at inCall
      rcases eq_call_of_update inCall with ⟨_, same⟩ | ⟨_, earlier⟩
      · cases same
        exact fun member => fresh (requests.generated _ member)
      · exact requests.unsent other call point earlier before
  | publishBegins isPublish dumped users commands =>
      refine quiet commands ?_
      intro other call point inCall before
      rw [users] at inCall
      rcases eq_call_of_update inCall with ⟨_, same⟩ | ⟨_, earlier⟩
      · cases same
      · exact requests.unsent other call point earlier before
  | @continues user activity goesOn users commands =>
      refine quiet commands ?_
      intro other call point inCall before
      rw [users] at inCall
      rcases eq_call_of_update inCall with ⟨_, same⟩ | ⟨_, earlier⟩
      · subst same
        generalize was : state.users user = previous at goesOn
        cases goesOn with
        | call earlier => exact requests.unsent user call _ was (earlier before)
      · exact requests.unsent other call point earlier before
  | @issues user command activity issued users commands sent =>
      have elsewhere : ∀ other call point, after.users other = .call call point →
          point.BeforeSend → other ≠ user ∧ state.users other = .call call point := by
        intro other call point inCall before
        rw [users] at inCall
        rcases eq_call_of_update inCall with ⟨_, same⟩ | found
        · subst same
          exact absurd before issued.not_beforeSend
        · exact found
      rcases issued.requestId_eq apart with ⟨noId, noCall⟩ | ⟨call, body, inCall, isRequest, hasId⟩
      · have same : after.commands.filterMap (Command.requestId config) =
            state.commands.filterMap (Command.requestId config) := by
          rw [commands, List.filterMap_append]
          simp [noId]
        refine ⟨same ▸ requests.once, ?_, ?_, ?_⟩
        · rw [same]
          exact fun id member => ids (requests.generated id member)
        · rw [same]
          intro other call point inCall before
          exact requests.unsent other call point (elsewhere other call point inCall before).2 before
        · intro routingKey message published
          rw [commands] at published
          rcases List.mem_append.mp published with earlier | isLast
          · obtain ⟨call, sameKey, wasSent⟩ := requests.recorded routingKey message earlier
            exact ⟨call, sameKey, history wasSent⟩
          · rw [← List.mem_singleton.mp isLast, Command.requestId, if_pos rfl] at noId
            cases noId
      · have grown : after.commands.filterMap (Command.requestId config) =
            state.commands.filterMap (Command.requestId config) ++ [call.id] := by
          rw [commands, List.filterMap_append]
          simp [hasId]
        have unsent := requests.unsent user call _ inCall trivial
        refine ⟨?_, ?_, ?_, ?_⟩
        · rw [grown, List.nodup_append]
          refine ⟨requests.once, List.nodup_singleton _, ?_⟩
          intro id member other isLast same
          rw [List.mem_singleton.mp isLast] at same
          exact unsent (same ▸ member)
        · rw [grown]
          intro id member
          rcases List.mem_append.mp member with earlier | isLast
          · exact ids (requests.generated id earlier)
          · rw [List.mem_singleton.mp isLast]
            exact ids (distinct.known inCall)
        · rw [grown]
          intro other waiting point isCalling before member
          obtain ⟨different, earlier⟩ := elsewhere other waiting point isCalling before
          rcases List.mem_append.mp member with known | isLast
          · exact requests.unsent other waiting point earlier before known
          · exact different (distinct.unique earlier inCall (List.mem_singleton.mp isLast))
        · intro routingKey message published
          rw [commands] at published
          rcases List.mem_append.mp published with earlier | isLast
          · obtain ⟨other, sameKey, wasSent⟩ := requests.recorded routingKey message earlier
            exact ⟨other, sameKey, history wasSent⟩
          · have same := (List.mem_singleton.mp isLast).trans isRequest
            cases same
            exact ⟨call, rfl, sent call body inCall⟩

theorem requestsOnce_of_reachable (apart : config.rpcExchange ≠ config.eventExchange)
    (reachable : (machine env config).Reachable state) : RequestsOnce config state := by
  refine reachable.invariant (RequestsOnce config) ?_ ?_
  · exact ⟨List.nodup_nil, nofun, nofun, nofun⟩
  · intro _ _ _ earlier requests stepped
    exact requests.next apart (consistent_of_reachable earlier).distinct stepped

end Client

end Ccmqsrv
