import Ccmqsrv.ReplyOrigin
import Ccmqsrv.ReplyReceipt

/-!
# Clients and a server

Any number of clients and a server, joined by the broker.  Every thread of
every client, every worker of the server and the broker take steps in any
order.  What was sent stays available, so a message can be late, overtake
others, arrive more than once or never arrive.  The broker hands a reply only
to a client whose callback queue it is addressed to, and a request id that was
generated is not generated again on any client.

What each client does is a run of the client machine, and every reply that
reaches a client comes from a worker that was made for a request of a client.
-/

namespace Ccmqsrv

open Foundations

namespace Client

/-- The broker hands a message to the client. -/
def Action.isDelivery : Action → Bool
  | .deliver _ => true
  | _ => false

/-- The action generates an id that is in the list. -/
def Action.reuses (ids : List Str) : Action → Bool
  | .call _ _ _ _ uuid => ids.contains (requestId uuid)
  | _ => false

/-- The event is the sending of this message. -/
def Event.sends (message : Message) : Event → Bool
  | .sent _ other => decide (other = message)
  | _ => false

/-- Ids are generated by new calls only. -/
theorem Effect.ids_before {env : Env} {config : Config} {state after : State} {action : Action}
    (effect : Effect env config state action after) {id : Str} (known : id ∈ after.ids) :
    id ∈ state.ids ∨ ∃ user routingKey meth args uuid,
      action = .call user routingKey meth args uuid ∧ id = requestId uuid := by
  have subscripted : ∀ other, id ∈ (state.subscript other).ids → id ∈ state.ids := by
    intro other member
    rw [(state.subscript_frame other).2] at member
    exact member
  cases effect with
  | call begun idle fresh =>
      subst begun
      rcases List.mem_cons.mp known with rfl | earlier
      · exact Or.inr ⟨_, _, _, _, _, rfl, rfl⟩
      · exact Or.inl earlier
  | callStep inCall effect =>
      cases effect with
      | lookupNull missing => exact Or.inl (subscripted _ known)
      | _ => exact Or.inl known
  | publishStep publishing effect =>
      rw [effect.frame.ids] at known
      exact Or.inl known
  | loopStep effect =>
      generalize state.loop = point at effect
      cases effect with
      | lookupNull missing => exact Or.inl (subscripted _ known)
      | _ => exact Or.inl known
  | _ => exact Or.inl known

end Client

/-- The broker hands a request to the server. -/
def Server.Action.isRequest : Server.Action → Bool
  | .rpcMessage _ => true
  | _ => false

namespace Network

structure State where
  clients : Nat → Client.State := fun _ => {}
  server : Server.State := {}
  /-- The request ids generated so far. -/
  ids : List Str := []
  /-- The tables that the server has had, for the statements about runs. -/
  tables : List MessageQueueServer := []

inductive Action where
  | client (index : Nat) (action : Client.Action)
  | server (action : Server.Action)
  /-- A message that the client has sent reaches the server. -/
  | request (index : Nat) (message : Message)
  /-- A reply that the server has published reaches the client. -/
  | reply (index : Nat) (envelope : Envelope)

/-- A client has taken a step. -/
def State.putClient (state : State) (index : Nat) (client : Client.State) : State :=
  { state with
    clients := Function.update state.clients index client
    ids := client.ids ++ state.ids }

/-- The server has taken a step. -/
def State.putServer (state : State) (server : Server.State) : State :=
  { state with server, tables := state.server.server :: state.tables }

/-- What `on_response` reads of a reply. -/
def responseOf (envelope : Envelope) : Client.Response where
  correlationID := envelope.correlationID
  body := envelope.body

def step (env : Env) (configs : Nat → Client.Config) (state : State) : Action → Option State
  | .client index action =>
      if action.isDelivery || action.reuses state.ids then
        none
      else
        (Client.step env (configs index) (state.clients index) action).map (state.putClient index)
  | .server action =>
      if action.isRequest then
        none
      else
        (Server.step env state.server action).map state.putServer
  | .request index message =>
      if (state.clients index).history.any (Client.Event.sends message) then
        (Server.step env state.server (.rpcMessage message)).map state.putServer
      else
        none
  | .reply index envelope =>
      if state.server.published.contains envelope &&
          envelope.routingKey == (configs index).callbackQueue then
        (Client.step env (configs index) (state.clients index)
          (.deliver (responseOf envelope))).map (state.putClient index)
      else
        none

/-- Clients, server and broker under every interleaving of their steps. -/
def machine (env : Env) (configs : Nat → Client.Config) : Machine State Action where
  init := {}
  step := step env configs

/-- Everything a step can do. -/
inductive Effect (env : Env) (configs : Nat → Client.Config) (state : State) :
    Action → State → Prop
  | client {index : Nat} {action : Client.Action} {next : Client.State} :
      (∀ response, action ≠ .deliver response) →
        (∀ user routingKey meth args uuid,
          action = .call user routingKey meth args uuid → Client.requestId uuid ∉ state.ids) →
            Client.step env (configs index) (state.clients index) action = some next →
              Effect env configs state (.client index action) (state.putClient index next)
  | server {action : Server.Action} {next : Server.State} :
      (∀ message, action ≠ .rpcMessage message) →
        Server.step env state.server action = some next →
          Effect env configs state (.server action) (state.putServer next)
  | request {index : Nat} {call : Client.Call} {message : Message} {next : Server.State} :
      .sent call message ∈ (state.clients index).history →
        Server.step env state.server (.rpcMessage message) = some next →
          Effect env configs state (.request index message) (state.putServer next)
  | reply {index : Nat} {envelope : Envelope} {next : Client.State} :
      envelope ∈ state.server.published →
        envelope.routingKey = (configs index).callbackQueue →
          Client.step env (configs index) (state.clients index)
              (.deliver (responseOf envelope)) = some next →
            Effect env configs state (.reply index envelope) (state.putClient index next)

variable {env : Env} {configs : Nat → Client.Config} {state after : State} {action : Action}

theorem step_effect (stepped : step env configs state action = some after) :
    Effect env configs state action after := by
  cases action with
  | client index action =>
      by_cases refused : (action.isDelivery || action.reuses state.ids) = true
      · rw [step, if_pos refused] at stepped
        cases stepped
      · rw [step, if_neg refused] at stepped
        obtain ⟨next, moved, rfl⟩ := Option.map_eq_some_iff.mp stepped
        rw [Bool.or_eq_true, not_or] at refused
        refine Effect.client ?_ ?_ moved
        · intro response same
          subst same
          exact refused.1 rfl
        · intro user routingKey meth args uuid same used
          subst same
          exact refused.2 (List.contains_iff_mem.mpr used)
  | server action =>
      by_cases refused : action.isRequest = true
      · rw [step, if_pos refused] at stepped
        cases stepped
      · rw [step, if_neg refused] at stepped
        obtain ⟨next, moved, rfl⟩ := Option.map_eq_some_iff.mp stepped
        refine Effect.server ?_ moved
        intro message same
        subst same
        exact refused rfl
  | request index message =>
      by_cases wasSent : (state.clients index).history.any (Client.Event.sends message) = true
      · rw [step, if_pos wasSent] at stepped
        obtain ⟨next, moved, rfl⟩ := Option.map_eq_some_iff.mp stepped
        obtain ⟨event, member, sends⟩ := List.any_eq_true.mp wasSent
        cases event with
        | sent call other =>
            cases of_decide_eq_true sends
            exact Effect.request member moved
        | _ => cases sends
      · rw [step, if_neg wasSent] at stepped
        cases stepped
  | reply index envelope =>
      by_cases routed : (state.server.published.contains envelope &&
          envelope.routingKey == (configs index).callbackQueue) = true
      · rw [step, if_pos routed] at stepped
        obtain ⟨next, moved, rfl⟩ := Option.map_eq_some_iff.mp stepped
        obtain ⟨published, addressed⟩ := Bool.and_eq_true_iff.mp routed
        exact Effect.reply (List.contains_iff_mem.mp published) (eq_of_beq addressed) moved
      · rw [step, if_neg routed] at stepped
        cases stepped

section Fields

variable (state) {index other : Nat} (client : Client.State)

@[simp]
theorem State.putClient_self : (state.putClient index client).clients index = client :=
  Function.update_self ..

theorem State.putClient_of_ne (different : other ≠ index) :
    (state.putClient index client).clients other = state.clients other :=
  Function.update_of_ne different ..

end Fields

/-- A client has sent this message. -/
def Asked (state : State) (message : Message) : Prop :=
  ∃ index call, .sent call message ∈ (state.clients index).history

/-- How the clients and the server are connected. -/
structure Linked (env : Env) (configs : Nat → Client.Config) (state : State) : Prop where
  generated : ∀ index id, id ∈ (state.clients index).ids → id ∈ state.ids
  apart : ∀ index other id, id ∈ (state.clients index).ids → id ∈ (state.clients other).ids →
    index = other
  delivered : ∀ index response found, .delivered response found ∈ (state.clients index).history →
    ∃ envelope, envelope ∈ state.server.published ∧
      envelope.routingKey = (configs index).callbackQueue ∧ response = responseOf envelope
  attributed : Server.Attributed env state.tables (Asked state) state.server

/-- A step of a client. -/
private theorem Linked.putClient (linked : Linked env configs state) {index : Nat}
    {client : Client.State}
    (ids : ∀ id, id ∈ client.ids → id ∈ (state.clients index).ids ∨ id ∉ state.ids)
    (history : (state.clients index).history ⊆ client.history)
    (delivered : ∀ response found, .delivered response found ∈ client.history →
      .delivered response found ∈ (state.clients index).history ∨
        ∃ envelope, envelope ∈ state.server.published ∧
          envelope.routingKey = (configs index).callbackQueue ∧ response = responseOf envelope) :
    Linked env configs (state.putClient index client) := by
  have notElsewhere : ∀ other id, other ≠ index → id ∈ client.ids →
      id ∉ (state.clients other).ids := by
    intro other id different own known
    rcases ids id own with earlier | fresh
    · exact different (linked.apart other index id known earlier)
    · exact fresh (linked.generated other id known)
  constructor
  · intro other id known
    by_cases same : other = index
    · subst same
      rw [State.putClient_self] at known
      exact List.mem_append_left _ known
    · rw [State.putClient_of_ne _ _ same] at known
      exact List.mem_append_right _ (linked.generated other id known)
  · intro first second id firstKnown secondKnown
    by_cases isFirst : first = index
    · by_cases isSecond : second = index
      · exact isFirst.trans isSecond.symm
      · rw [isFirst, State.putClient_self] at firstKnown
        rw [State.putClient_of_ne _ _ isSecond] at secondKnown
        exact absurd secondKnown (notElsewhere second id isSecond firstKnown)
    · rw [State.putClient_of_ne _ _ isFirst] at firstKnown
      by_cases isSecond : second = index
      · rw [isSecond, State.putClient_self] at secondKnown
        exact absurd firstKnown (notElsewhere first id isFirst secondKnown)
      · rw [State.putClient_of_ne _ _ isSecond] at secondKnown
        exact linked.apart first second id firstKnown secondKnown
  · intro other response found member
    by_cases same : other = index
    · subst same
      rw [State.putClient_self] at member
      rcases delivered response found member with earlier | published
      · exact linked.delivered other response found earlier
      · exact published
    · rw [State.putClient_of_ne _ _ same] at member
      exact linked.delivered other response found member
  · refine linked.attributed.mono (List.Subset.refl _) ?_
    intro message asked
    obtain ⟨other, call, sent⟩ := asked
    refine ⟨other, call, ?_⟩
    by_cases same : other = index
    · subst same
      rw [State.putClient_self]
      exact history sent
    · rw [State.putClient_of_ne _ _ same]
      exact sent

/-- A step of the server. -/
private theorem Linked.putServer (linked : Linked env configs state) {next : Server.State}
    {serverAction : Server.Action}
    (asks : ∀ message, serverAction = .rpcMessage message → Asked state message)
    (stepped : Server.step env state.server serverAction = some next) :
    Linked env configs (state.putServer next) := by
  have effect := (Server.step_effect stepped).2
  have published : state.server.published ⊆ next.published := by
    cases effect with
    | work found worked => exact List.subset_append_left _ _
    | _ => exact fun _ member => member
  constructor
  · exact linked.generated
  · exact linked.apart
  · intro index response found member
    obtain ⟨envelope, isPublished, rest⟩ := linked.delivered index response found member
    exact ⟨envelope, published isPublished, rest⟩
  · have current := linked.attributed.mono (List.subset_cons_self state.server.server state.tables)
      fun _ asked => asked
    exact current.next List.mem_cons_self asks effect

theorem Linked.next (linked : Linked env configs state)
    (effect : Effect env configs state action after) : Linked env configs after := by
  cases effect with
  | @client index clientAction next notDelivery fresh stepped =>
      have effect := (Client.step_effect stepped).2
      refine linked.putClient ?_ effect.callsMove.history_subset ?_
      · intro id known
        refine (effect.ids_before known).imp_right fun begun => ?_
        obtain ⟨user, routingKey, meth, args, uuid, same, rfl⟩ := begun
        exact fresh user routingKey meth args uuid same
      · intro response found member
        rcases effect.loopMove.delivered_before member with earlier | delivering
        · exact Or.inl earlier
        · exact absurd delivering (notDelivery response)
  | server notRequest stepped =>
      refine linked.putServer ?_ stepped
      intro message same
      exact absurd same (notRequest message)
  | @request index call message next sent stepped =>
      refine linked.putServer ?_ stepped
      intro other same
      cases same
      exact ⟨index, call, sent⟩
  | @reply index envelope next published addressed stepped =>
      have effect := (Client.step_effect stepped).2
      refine linked.putClient ?_ effect.callsMove.history_subset ?_
      · intro id known
        refine (effect.ids_before known).imp_right fun begun => ?_
        obtain ⟨user, routingKey, meth, args, uuid, same, _⟩ := begun
        cases same
      · intro response found member
        rcases effect.loopMove.delivered_before member with earlier | delivering
        · exact Or.inl earlier
        · cases delivering
          exact Or.inr ⟨envelope, published, addressed, rfl⟩

theorem linked_of_reachable (reachable : (machine env configs).Reachable state) :
    Linked env configs state := by
  refine reachable.invariant (Linked env configs) ?_ ?_
  · refine ⟨by simp [machine], by simp [machine], by simp [machine], ?_⟩
    exact ⟨by simp [machine], by simp [machine]⟩
  · intro _ _ _ _ linked stepped
    exact linked.next (step_effect stepped)

/-- What a client does in a run of the whole is a run of the client, guarded
by what the guard of the whole and the broker grant. -/
theorem clientRun {allowed : State → Action → Prop}
    {guard : Client.State → Client.Action → Prop}
    (own : ∀ {state index clientAction}, allowed state (.client index clientAction) →
      (∀ response, clientAction ≠ .deliver response) →
        guard (state.clients index) clientAction)
    (delivers : ∀ {state index envelope}, Linked env configs state →
      envelope ∈ state.server.published →
        guard (state.clients index) (.deliver (responseOf envelope)))
    {trace : List Action} (run : (machine env configs).Run allowed trace state) (index : Nat) :
    ∃ clientTrace,
      (Client.machine env (configs index)).Run guard clientTrace (state.clients index) := by
  refine run.invariant (fun _ state => ∃ clientTrace,
    (Client.machine env (configs index)).Run guard clientTrace (state.clients index)) ?_ ?_
  · exact ⟨[], Machine.Run.start⟩
  · intro _ state _ _ earlier held isAllowed stepped
    obtain ⟨clientTrace, clientRun⟩ := held
    have moves : ∀ {mover : Nat} {clientAction : Client.Action} {next : Client.State},
        (mover = index → guard (state.clients mover) clientAction) →
          Client.step env (configs mover) (state.clients mover) clientAction = some next →
            ∃ clientTrace, (Client.machine env (configs index)).Run guard clientTrace
              ((state.putClient mover next).clients index) := by
      intro mover clientAction next granted moved
      by_cases same : index = mover
      · subst same
        rw [State.putClient_self]
        exact ⟨_, clientRun.next (granted rfl) moved⟩
      · rw [State.putClient_of_ne _ _ same]
        exact ⟨clientTrace, clientRun⟩
    cases step_effect stepped with
    | client notDelivery fresh moved => exact moves (fun _ => own isAllowed notDelivery) moved
    | server notRequest moved => exact ⟨clientTrace, clientRun⟩
    | request sent moved => exact ⟨clientTrace, clientRun⟩
    | reply published addressed moved =>
        have linked := linked_of_reachable earlier.reachable
        exact moves (fun _ => delivers linked published) moved

theorem client_reachable (reachable : (machine env configs).Reachable state) (index : Nat) :
    (Client.machine env (configs index)).Reachable (state.clients index) := by
  obtain ⟨trace, run⟩ := reachable
  exact @clientRun env configs state Machine.always Machine.always (fun _ _ => trivial)
    (fun _ _ => trivial) trace run index

end Network

end Ccmqsrv
