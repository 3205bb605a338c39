import Ccmqsrv.PendingRequests
import Ccmqsrv.Foundations.Log

/-!
# Events follow the declaration of their queue

A publisher declares and binds the queue of a routing key it does not find in
`routing_keys_`, and inserts the key afterwards.  A key that is found there was
inserted by a publisher that had given both commands.

Requests are published too.  They go to the RPC exchange.
-/

namespace Ccmqsrv

open Foundations

namespace Client

/-- The queue of the routing key was declared and bound to the event exchange. -/
def Bound (config : Config) (commands : List Command) (routingKey : Str) : Prop :=
  .declareQueue routingKey ∈ commands ∧
    .bindQueue config.eventExchange routingKey routingKey ∈ commands

/-- What a publisher has commanded on its way. -/
def PublishPoint.Commanded (config : Config) (commands : List Command) (routingKey : Str) :
    PublishPoint → Prop
  | .find => True
  | .declare => True
  | .bind => .declareQueue routingKey ∈ commands
  | _ => Bound config commands routingKey

/-- Publishers have given their commands, and a call is in progress only next
to an event exchange of its own. -/
def Activity.Commanded (config : Config) (commands : List Command) : Activity → Prop
  | .idle => True
  | .call _ _ => config.rpcExchange ≠ config.eventExchange
  | .publish routingKey _ point => point.Commanded config commands routingKey

/-- An event needs its queue. -/
def NeedsQueue (config : Config) (before : List Command) (command : Command) : Prop :=
  ∀ routingKey message, command = .publish config.eventExchange routingKey message →
    Bound config before routingKey

/-- Calls are begun only if requests do not go to the event exchange.  Threads
that only publish may do so under any names of the exchanges. -/
def RequestsApart (config : Config) : State → Action → Prop
  | _, .call _ _ _ _ _ => config.rpcExchange ≠ config.eventExchange
  | _, _ => True

/-- Membership in `routing_keys_`, the position of each thread and the commands
given so far agree. -/
structure QueuesFirst (config : Config) (state : State) : Prop where
  keys : ∀ routingKey ∈ state.routingKeys, Bound config state.commands routingKey
  users : ∀ user, (state.users user).Commanded config state.commands
  commands : Preceded (NeedsQueue config) state.commands

variable {env : Env} {config : Config} {state after : State} {action : Action} {user : Nat}

section Growing

variable {commands : List Command} {issued : Command} {routingKey : Str}

theorem Bound.append (bound : Bound config commands routingKey) (issued : List Command) :
    Bound config (commands ++ issued) routingKey := by
  constructor
  · exact List.mem_append_left issued bound.1
  · exact List.mem_append_left issued bound.2

theorem Activity.Commanded.append {activity : Activity}
    (commanded : activity.Commanded config commands) (issued : List Command) :
    activity.Commanded config (commands ++ issued) := by
  cases activity with
  | idle => trivial
  | call call point => exact commanded
  | publish routingKey data point =>
      cases point with
      | find => trivial
      | declare => trivial
      | bind => exact List.mem_append_left issued commanded
      | _ => exact Bound.append commanded issued

end Growing

namespace QueuesFirst

/-- A step that touches neither the keys nor the channel nor a thread. -/
private theorem still (first : QueuesFirst config state) (users : after.users = state.users)
    (keys : after.routingKeys = state.routingKeys)
    (commands : after.commands = state.commands) : QueuesFirst config after := by
  constructor
  · rw [keys, commands]
    exact first.keys
  · rw [users, commands]
    exact first.users
  · rw [commands]
    exact first.commands

/-- A step of a thread that leaves the keys and the channel alone. -/
private theorem moves (first : QueuesFirst config state) {activity : Activity}
    (users : after.users = Function.update state.users user activity)
    (commanded : activity.Commanded config state.commands)
    (keys : after.routingKeys = state.routingKeys)
    (commands : after.commands = state.commands) : QueuesFirst config after := by
  constructor
  · rw [keys, commands]
    exact first.keys
  · intro other
    rw [users, commands]
    by_cases same : other = user
    · rw [same, Function.update_self]
      exact commanded
    · rw [Function.update_of_ne same]
      exact first.users other
  · rw [commands]
    exact first.commands

/-- A thread gives a command. -/
private theorem issues (first : QueuesFirst config state) {activity : Activity}
    {issued : Command} (users : after.users = Function.update state.users user activity)
    (commanded : activity.Commanded config (state.commands ++ [issued]))
    (keys : after.routingKeys = state.routingKeys)
    (commands : after.commands = state.commands ++ [issued])
    (needs : NeedsQueue config state.commands issued) : QueuesFirst config after := by
  constructor
  · intro routingKey member
    rw [keys] at member
    rw [commands]
    exact (first.keys routingKey member).append _
  · intro other
    rw [users, commands]
    by_cases same : other = user
    · rw [same, Function.update_self]
      exact commanded
    · rw [Function.update_of_ne same]
      exact (first.users other).append _
  · rw [commands]
    exact first.commands.append_singleton needs

/-- An inserting lookup in another table. -/
private theorem subscript (first : QueuesFirst config state) (id : Str) :
    QueuesFirst config (state.subscript id).undefined := by
  obtain ⟨reqEvents, same⟩ := state.subscript_eq id
  rw [same]
  exact first.still rfl rfl rfl

private theorem callStep {call : Call} {point : CallPoint} (first : QueuesFirst config state)
    (inCall : state.users user = .call call point)
    (effect : CallEffect env config state user call point after) :
    QueuesFirst config after := by
  have apart : config.rpcExchange ≠ config.eventExchange := by
    have commanded := first.users user
    rw [inCall] at commanded
    exact commanded
  cases effect with
  | encodeFault failed => exact first.moves rfl trivial rfl rfl
  | send =>
      refine first.issues rfl apart rfl rfl ?_
      intro routingKey message same
      injection same with sameExchange
      exact absurd sameExchange apart
  | lookupNull missing => exact first.subscript call.id
  | getDestroyed notThrew missing => exact first.still rfl rfl rfl
  | throw => exact first.moves rfl trivial rfl rfl
  | finish => exact first.moves rfl trivial rfl rfl
  | _ => exact first.moves rfl apart rfl rfl

private theorem publishStep {routingKey data : Str} {point : PublishPoint}
    (first : QueuesFirst config state)
    (publishing : state.users user = .publish routingKey data point)
    (effect : PublishEffect config state user routingKey data point after) :
    QueuesFirst config after := by
  have commanded : point.Commanded config state.commands routingKey := by
    have commanded := first.users user
    rw [publishing] at commanded
    exact commanded
  have own : ∀ command : Command, command ∈ state.commands ++ [command] :=
    fun command => List.mem_append_right _ (List.mem_singleton_self command)
  cases effect with
  | known known => exact first.moves rfl (first.keys routingKey known) rfl rfl
  | unknown unknown => exact first.moves rfl trivial rfl rfl
  | declare =>
      refine first.issues rfl (own _) rfl rfl ?_
      intro _ _ impossible
      cases impossible
  | bind =>
      refine first.issues rfl ⟨List.mem_append_left _ commanded, own _⟩ rfl rfl ?_
      intro _ _ impossible
      cases impossible
  | insert =>
      have moved : QueuesFirst config (state.put user (.publish routingKey data .lock)) :=
        first.moves rfl commanded rfl rfl
      refine ⟨?_, moved.users, moved.commands⟩
      intro other member
      rcases List.mem_insert_iff.mp member with rfl | earlier
      · exact commanded
      · exact first.keys other earlier
  | send =>
      refine first.issues rfl trivial rfl rfl ?_
      intro other message same
      injection same with _ sameKey
      subst sameKey
      exact commanded
  | _ => exact first.moves rfl commanded rfl rfl

theorem next (first : QueuesFirst config state) (allowed : RequestsApart config state action)
    (effect : Effect env config state action after) : QueuesFirst config after := by
  cases effect with
  | call begun idle fresh => exact first.moves rfl allowed rfl rfl
  | publish idle => exact first.moves rfl trivial rfl rfl
  | callStep inCall effect => exact first.callStep inCall effect
  | publishStep publishing effect => exact first.publishStep publishing effect
  | loopStep effect =>
      generalize state.loop = point at effect
      cases effect with
      | lookupNull missing => exact first.subscript _
      | _ => exact first.still rfl rfl rfl
  | @wake user status call object inCall found =>
      have commanded := first.users user
      rw [inCall] at commanded
      exact first.moves rfl commanded rfl rfl
  | @wakePublisher user routingKey data publishing =>
      have commanded := first.users user
      rw [publishing] at commanded
      exact first.moves rfl commanded rfl rfl
  | _ => exact first.still rfl rfl rfl

end QueuesFirst

theorem queuesFirst_of_run {trace : List Action}
    (run : (machine env config).Run (RequestsApart config) trace state) :
    QueuesFirst config state := by
  refine run.invariant (fun _ state => QueuesFirst config state) ?_ ?_
  · exact ⟨nofun, fun _ => trivial, Preceded.nil⟩
  · intro _ _ _ _ _ first allowed stepped
    exact first.next allowed (step_effect stepped).2

/-- Before an event is published its queue is declared and bound. -/
theorem declared_and_bound_of_publish {trace : List Action}
    (run : (machine env config).Run (RequestsApart config) trace state)
    {before later : List Command} {routingKey : Str} {message : Message}
    (split : state.commands =
      before ++ .publish config.eventExchange routingKey message :: later) :
    .declareQueue routingKey ∈ before ∧
      .bindQueue config.eventExchange routingKey routingKey ∈ before :=
  (queuesFirst_of_run run).commands before _ later split routingKey message rfl

/-- `RequestsApart`, computed for threads that only publish. -/
def onlyPublishes : State → Action → Bool
  | _, .call _ _ _ _ _ => false
  | _, _ => true

theorem onlyPublishes_sound (state : State) (action : Action)
    (passed : onlyPublishes state action = true) : RequestsApart config state action := by
  cases action with
  | call user routingKey meth args uuid => cases passed
  | _ => trivial

def eventMessage (data : Str) : Message :=
  { body := data, correlationID := [], replyTo := [] }

/-- Two publishers of one key.  The first declares the queue and wakes up for
no reason, the second finds the key. -/
def publishedAgain : List Action :=
  .publish 0 (ascii "q") (ascii "e") (.int 1) :: List.replicate 7 (.advance (.user 0)) ++
    [.publish 1 (ascii "q") (ascii "e") (.int 2), .wakePublisher 0] ++
    List.replicate 3 (.advance (.user 0)) ++ List.replicate 4 (.advance (.user 1)) ++
    [.bindSuccess, .advance .loop, .wakePublisher 1] ++ List.replicate 3 (.advance (.user 1))

/-- The commands of `publishedAgain` before the last. -/
def firstCommands : List Command :=
  [.declareQueue (ascii "q"), .bindQueue (ascii "event") (ascii "q") (ascii "q"),
    .publish (ascii "event") (ascii "q") (eventMessage (ascii "[\"e\",1]"))]

theorem declared_and_bound_publishedAgain :
    ∃ state, (machine ⟨codec, false⟩ exampleConfig).Run (RequestsApart exampleConfig)
        publishedAgain state ∧
      state.commands = firstCommands ++
        [.publish exampleConfig.eventExchange (ascii "q")
          (eventMessage (ascii "[\"e\",2]"))] ∧
      .declareQueue (ascii "q") ∈ firstCommands ∧
      .bindQueue exampleConfig.eventExchange (ascii "q") (ascii "q") ∈ firstCommands := by
  have passed : (((machine ⟨codec, false⟩ exampleConfig).execWhile onlyPublishes publishedAgain
      (machine ⟨codec, false⟩ exampleConfig).init).any fun state =>
        state.commands == firstCommands ++
          [.publish exampleConfig.eventExchange (ascii "q")
            (eventMessage (ascii "[\"e\",2]"))]) = true := by
    decide +kernel
  obtain ⟨state, run, commands⟩ := Machine.Run.of_execWhile_any onlyPublishes_sound passed
  have split := eq_of_beq commands
  exact ⟨state, run, split, declared_and_bound_of_publish run split⟩

end Client

end Ccmqsrv
