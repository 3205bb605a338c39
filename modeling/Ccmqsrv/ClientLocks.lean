import Ccmqsrv.PendingRequests
import Ccmqsrv.Foundations.LockOrder

/-!
# The mutexes of the client

A caller holds `req_events_mtx` when it acquires the mutex of its result, and a
publisher holds `pub_mtx` when it acquires `send_mtx`.  No thread acquires a
mutex while it holds the mutex of a result or `send_mtx`, so threads never wait
for mutexes in a circle.

The event loop acquires the mutexes of results and no other.  A caller gives
this mutex back while it waits for its reply.

Here `call_async` is also called for itself, without the rest of `Caller::call`.
-/

namespace Ccmqsrv

open Foundations

namespace Client

/-- A client some of whose threads call `call_async` themselves. -/
structure Shared where
  client : State := {}
  /-- The last call of the thread was begun as `call_async`. -/
  direct : Nat → Bool := fun _ => false

inductive SharedAction where
  | client (action : Action)
  | callAsync (user : Nat) (routingKey meth : Str) (args : List Json) (uuid : Str)
  /-- `call_async` returns the id to the thread. -/
  | returnId (user : Nat)

/-- The thread has come to the end of `call_async`. -/
def Activity.sent : Activity → Bool
  | .call _ .await => true
  | _ => false

/-- Who calls `call_async` itself does not go on to `get`. -/
def Shared.goesOn (shared : Shared) : Action → Bool
  | .advance (.user user) => !(shared.direct user && (shared.client.users user).sent)
  | _ => true

/-- A call that begins is a call of `Caller::call`. -/
def Shared.begins (shared : Shared) : Action → Nat → Bool
  | .call user _ _ _ _ => Function.update shared.direct user false
  | _ => shared.direct

/-- `call_async` does not test the name of the method, which may be empty. -/
def sharedStep (env : Env) (config : Config) (shared : Shared) : SharedAction → Option Shared
  | .client action =>
      if shared.goesOn action then do
        let client ← step env config shared.client action
        return { client, direct := shared.begins action }
      else
        none
  | .callAsync user routingKey meth args uuid =>
      match shared.client.fault, shared.client.users user with
      | none, .idle =>
          if shared.client.ids.contains (requestId uuid) then
            none
          else
            let call : Call := { id := requestId uuid, routingKey, meth, args }
            some
              { client :=
                  { shared.client.put user (.call call .register) with
                    ids := call.id :: shared.client.ids }
                direct := Function.update shared.direct user true }
      | _, _ => none
  | .returnId user =>
      match shared.client.fault, shared.client.users user with
      | none, .call _ .await =>
          if shared.direct user then
            some { shared with client := shared.client.put user .idle }
          else
            none
      | _, _ => none

/-- The client under every interleaving, with both ways to call. -/
def sharedMachine (env : Env) (config : Config) : Machine Shared SharedAction where
  init := {}
  step := sharedStep env config

/-- The mutexes of a client. -/
inductive Lock where
  | reqEvents
  | result (id : Str)
  | pub
  | send
  deriving DecidableEq

namespace Lock

/-- Mutexes of rank 1 are acquired last. -/
def rank : Lock → Nat
  | .reqEvents => 0
  | .pub => 0
  | .result _ => 1
  | .send => 1

end Lock

/-- The mutex the next step acquires. -/
def CallPoint.awaits (id : Str) : CallPoint → Option Lock
  | .register => some .reqEvents
  | .send _ => some .send
  | .await => some .reqEvents
  | .get .enter => some (.result id)
  | .get (.woken _) => some (.result id)
  | _ => none

/-- The mutex the next step acquires. -/
def PublishPoint.awaits : PublishPoint → Option Lock
  | .lock => some .pub
  | .woken => some .pub
  | .send => some .send
  | _ => none

/-- The mutex the next step acquires. -/
def Activity.awaits : Activity → Option Lock
  | .idle => none
  | .call current point => point.awaits current.id
  | .publish _ _ point => point.awaits

/-- The mutex the next step acquires. -/
def LoopPoint.awaits : LoopPoint → Option Lock
  | .set id _ .enter => some (.result id)
  | _ => none

namespace State

def owner (state : State) : Lock → Option Thread
  | .reqEvents => state.reqEventsMtx
  | .result id => (state.object id).bind AsyncResult.mutex
  | .pub => state.pubMtx
  | .send => state.sendMtx

def awaits (state : State) : Thread → Option Lock
  | .loop => state.loop.awaits
  | .user user => (state.users user).awaits

/-- Who owns which mutex and who is about to acquire one. -/
def locks (state : State) : Locks Thread Lock where
  owner := state.owner
  awaits := state.awaits

end State

/-- The thread is in `wait_for`, which it leaves with the mutex of its result. -/
def Activity.WaitsForReply : Activity → Prop
  | .call _ (.get .blocked) => True
  | .call _ (.get (.woken _)) => True
  | _ => False

/-- The publisher holds `pub_mtx`. -/
def PublishPoint.HoldsPub : PublishPoint → Prop
  | .locked => True
  | .wait => True
  | .send => True
  | .sending => True
  | _ => False

/-- The mutexes a thread holds where it stands. -/
def Activity.Holds : Activity → Lock → Prop
  | .call _ point, .reqEvents => point.HoldsTable
  | .call current point, .result id => current.id = id ∧ point.OwnsObject
  | .call _ (.sending _), .send => True
  | .publish _ _ point, .pub => point.HoldsPub
  | .publish _ _ .sending, .send => True
  | _, _ => False

def State.Holds (state : State) : Thread → Lock → Prop
  | .loop, .result id => state.loop.Storing id
  | .loop, _ => False
  | .user user, lock => (state.users user).Holds lock

/-- Whoever owns a mutex stands where it is held. -/
def Accounted (state : State) : Prop :=
  ∀ lock thread, state.owner lock = some thread → state.Holds thread lock

variable {env : Env} {config : Config} {state after : State} {action : Action} {user : Nat}

section Owners

variable (state) (id : Str) (object : AsyncResult Thread)

theorem State.owner_result : state.owner (.result id) = (state.object id).bind AsyncResult.mutex :=
  rfl

theorem State.owner_setObject_self :
    (state.setObject id object).owner (.result id) = object.mutex := by
  rw [State.owner_result, State.object_setObject_self]
  rfl

theorem State.owner_setObject_of_ne {lock : Lock} (different : lock ≠ .result id) :
    (state.setObject id object).owner lock = state.owner lock := by
  cases lock with
  | result other =>
      have notSame : other ≠ id := fun same => different (congrArg Lock.result same)
      rw [State.owner_result, State.owner_result, State.object_setObject_of_ne _ _ _ notSame]
  | _ => rfl

/-- An object with the same mutex is no change. -/
theorem State.owner_setObject_of_mutex {found : AsyncResult Thread}
    (old : state.object id = some found) (same : object.mutex = found.mutex) :
    (state.setObject id object).owner = state.owner := by
  funext lock
  by_cases own : lock = .result id
  · rw [own, State.owner_setObject_self, State.owner_result, old]
    exact same
  · exact state.owner_setObject_of_ne id object own

theorem State.owner_subscript : (state.subscript id).undefined.owner = state.owner := by
  funext lock
  have objects := state.object_subscript id
  obtain ⟨reqEvents, same⟩ := state.subscript_eq id
  cases lock with
  | result other => exact congrArg (Option.bind · AsyncResult.mutex) (objects other)
  | _ =>
      rw [same]
      rfl

end Owners

namespace Accounted

/-- A user thread moves, and the mutexes it does not take are its own as before. -/
private theorem moves (accounted : Accounted state) {activity : Activity}
    (users : after.users = Function.update state.users user activity)
    (loop : after.loop = state.loop)
    (locks : ∀ lock thread, after.owner lock = some thread →
      (thread = .user user ∧ activity.Holds lock) ∨
        state.owner lock = some thread ∧
          ((state.users user).Holds lock → activity.Holds lock)) : Accounted after := by
  intro lock thread owned
  rcases locks lock thread owned with ⟨rfl, holds⟩ | ⟨ownedBefore, keeps⟩
  · show (after.users user).Holds lock
    rw [users, Function.update_self]
    exact holds
  · have held := accounted lock thread ownedBefore
    cases thread with
    | loop =>
        cases lock with
        | result id =>
            show after.loop.Storing id
            rw [loop]
            exact held
        | _ => exact held
    | user other =>
        show (after.users other).Holds lock
        rw [users]
        by_cases same : other = user
        · subst same
          rw [Function.update_self]
          exact keeps held
        · rw [Function.update_of_ne same]
          exact held

/-- A user thread moves and no mutex changes its owner. -/
private theorem keeps (accounted : Accounted state) {activity : Activity}
    (users : after.users = Function.update state.users user activity)
    (loop : after.loop = state.loop) (owner : after.owner = state.owner)
    (holds : ∀ lock, (state.users user).Holds lock → activity.Holds lock) :
    Accounted after := by
  apply accounted.moves users loop
  intro lock thread owned
  rw [owner] at owned
  exact Or.inr ⟨owned, holds lock⟩

/-- A user thread moves and one mutex may change its owner. -/
private theorem changes (accounted : Accounted state) {activity : Activity} (changed : Lock)
    (users : after.users = Function.update state.users user activity)
    (loop : after.loop = state.loop)
    (own : ∀ thread, after.owner changed = some thread →
      thread = .user user ∧ activity.Holds changed)
    (others : ∀ lock, lock = changed ∨ after.owner lock = state.owner lock ∧
      ((state.users user).Holds lock → activity.Holds lock)) : Accounted after := by
  apply accounted.moves users loop
  intro lock thread owned
  rcases others lock with rfl | ⟨owner, holds⟩
  · exact Or.inl (own thread owned)
  · exact Or.inr ⟨owner.symm.trans owned, holds⟩

/-- A user thread acquires one mutex. -/
private theorem acquires (accounted : Accounted state) {activity : Activity} (acquired : Lock)
    (users : after.users = Function.update state.users user activity)
    (loop : after.loop = state.loop) (owner : after.owner acquired = some (.user user))
    (held : activity.Holds acquired)
    (others : ∀ lock, lock = acquired ∨ after.owner lock = state.owner lock ∧
      ((state.users user).Holds lock → activity.Holds lock)) : Accounted after := by
  refine accounted.changes acquired users loop ?_ others
  intro thread owned
  rw [owner] at owned
  cases owned
  exact ⟨rfl, held⟩

/-- Only the event loop moves. -/
private theorem loopMoves (accounted : Accounted state) (users : after.users = state.users)
    (locks : ∀ lock thread, after.owner lock = some thread →
      (thread = .loop ∧ after.Holds .loop lock) ∨
        state.owner lock = some thread ∧
          (state.Holds .loop lock → after.Holds .loop lock)) : Accounted after := by
  intro lock thread owned
  rcases locks lock thread owned with ⟨rfl, holds⟩ | ⟨ownedBefore, keeps⟩
  · exact holds
  · have held := accounted lock thread ownedBefore
    cases thread with
    | loop => exact keeps held
    | user other =>
        show (after.users other).Holds lock
        rw [users]
        exact held

/-- The event loop moves on from a point where it holds no mutex. -/
private theorem loopKeeps (accounted : Accounted state) (users : after.users = state.users)
    (owner : after.owner = state.owner) (nothing : ∀ id, ¬ state.loop.Storing id) :
    Accounted after := by
  apply accounted.loopMoves users
  intro lock thread owned
  rw [owner] at owned
  refine Or.inr ⟨owned, fun holds => ?_⟩
  cases lock with
  | result id => exact absurd holds (nothing id)
  | _ => exact holds

/-- Nobody moves and no mutex changes its owner. -/
private theorem still (accounted : Accounted state) (users : after.users = state.users)
    (loop : after.loop = state.loop) (owner : after.owner = state.owner) :
    Accounted after := by
  apply accounted.loopMoves users
  intro lock thread owned
  rw [owner] at owned
  refine Or.inr ⟨owned, fun holds => ?_⟩
  cases lock with
  | result id =>
      show after.loop.Storing id
      rw [loop]
      exact holds
  | _ => exact holds

private theorem subscript (accounted : Accounted state) (id : Str) :
    Accounted (state.subscript id).undefined := by
  apply accounted.still
  · exact (state.subscript_frame id).1
  · obtain ⟨reqEvents, same⟩ := state.subscript_eq id
    rw [same]
    rfl
  · exact state.owner_subscript id

/-- A step of `get` concerns the mutex of the result. -/
private theorem get {call : Call} {point next : GetPoint} {object moved : AsyncResult Thread}
    (accounted : Accounted state) (inCall : state.users user = .call call (.get point))
    (advanced : AsyncResult.GetEffect object (.user user) point moved next)
    (users : after.users = Function.update state.users user (.call call (.get next)))
    (loop : after.loop = state.loop)
    (owner : after.owner = (state.setObject call.id moved).owner) : Accounted after := by
  refine accounted.changes (.result call.id) users loop ?_ ?_
  · intro thread owned
    rw [owner, State.owner_setObject_self] at owned
    cases advanced with
    | lock free =>
        cases owned
        exact ⟨rfl, rfl, trivial⟩
    | relock status free =>
        cases owned
        exact ⟨rfl, rfl, trivial⟩
    | take done => cases owned
    | block pending => cases owned
    | throw => cases owned
    | resume => cases owned
  · intro lock
    by_cases same : lock = .result call.id
    · exact Or.inl same
    · right
      rw [owner, inCall]
      refine ⟨state.owner_setObject_of_ne call.id moved same, fun holds => ?_⟩
      cases lock with
      | result id =>
          obtain ⟨sameId, _⟩ := holds
          exact absurd (congrArg Lock.result sameId.symm) same
      | reqEvents => trivial
      | pub => exact holds
      | send => exact holds

private theorem callStep {call : Call} {point : CallPoint} (accounted : Accounted state)
    (inCall : state.users user = .call call point)
    (effect : CallEffect env config state user call point after) : Accounted after := by
  have holding : ∀ {lock}, (state.users user).Holds lock →
      (Activity.call call point).Holds lock := by
    intro lock holds
    rwa [inCall] at holds
  cases effect with
  | lockRegister free =>
      refine accounted.acquires .reqEvents rfl rfl rfl trivial ?_
      intro lock
      cases lock with
      | reqEvents => exact Or.inl rfl
      | _ => exact Or.inr ⟨rfl, holding⟩
  | register =>
      refine accounted.moves rfl rfl ?_
      intro lock thread owned
      by_cases own : lock = .result call.id
      · subst own
        have free : (state.setObject call.id {}).owner (.result call.id) = some thread := owned
        rw [State.owner_setObject_self] at free
        cases free
      · right
        cases lock with
        | reqEvents => cases owned
        | result id =>
            have owner := state.owner_setObject_of_ne call.id {} own
            exact ⟨owner.symm.trans owned, holding⟩
        | pub => exact ⟨owned, holding⟩
        | send => exact ⟨owned, holding⟩
  | lockSend free =>
      refine accounted.acquires .send rfl rfl rfl trivial ?_
      intro lock
      cases lock with
      | send => exact Or.inl rfl
      | _ => exact Or.inr ⟨rfl, holding⟩
  | send =>
      refine accounted.changes .send rfl rfl (fun _ owned => nomatch owned) ?_
      intro lock
      cases lock with
      | send => exact Or.inl rfl
      | _ => exact Or.inr ⟨rfl, holding⟩
  | lockAwait free =>
      refine accounted.acquires .reqEvents rfl rfl rfl trivial ?_
      intro lock
      cases lock with
      | reqEvents => exact Or.inl rfl
      | _ => exact Or.inr ⟨rfl, holding⟩
  | lookupNull missing => exact accounted.subscript call.id
  | get found advanced => exact accounted.get inCall advanced rfl rfl rfl
  | move found =>
      refine accounted.keeps rfl rfl (state.owner_setObject_of_mutex call.id _ found rfl) ?_
      intro lock holds
      cases lock <;> exact holding holds
  | getDestroyed notThrew missing => exact accounted.still rfl rfl rfl
  | throw =>
      refine accounted.changes .reqEvents rfl rfl (fun _ owned => nomatch owned) ?_
      intro lock
      cases lock with
      | reqEvents => exact Or.inl rfl
      | result id => exact Or.inr ⟨rfl, fun holds => (holding holds).2⟩
      | _ => exact Or.inr ⟨rfl, holding⟩
  | erase =>
      refine accounted.moves rfl rfl ?_
      intro lock thread owned
      right
      cases lock with
      | reqEvents => cases owned
      | result id =>
          refine ⟨?_, holding⟩
          rw [State.owner_result] at owned ⊢
          unfold State.object at owned ⊢
          by_cases same : id = call.id
          · rw [same, OrderedMap.lookup_erase_self] at owned
            cases owned
          · rwa [OrderedMap.lookup_erase_of_ne _ same] at owned
      | pub => exact ⟨owned, holding⟩
      | send => exact ⟨owned, holding⟩
  | encodeFault failed =>
      refine accounted.keeps rfl rfl rfl ?_
      intro lock holds
      cases lock with
      | result id => exact (holding holds).2
      | _ => exact holding holds
  | finish =>
      refine accounted.keeps rfl rfl rfl ?_
      intro lock holds
      cases lock with
      | result id => exact (holding holds).2
      | _ => exact holding holds
  | encode encoded =>
      refine accounted.keeps rfl rfl rfl ?_
      intro lock holds
      cases lock <;> exact holding holds
  | lookup found =>
      refine accounted.keeps rfl rfl rfl ?_
      intro lock holds
      cases lock <;> exact holding holds

private theorem publishStep {routingKey data : Str} {point : PublishPoint}
    (accounted : Accounted state) (publishing : state.users user = .publish routingKey data point)
    (effect : PublishEffect config state user routingKey data point after) :
    Accounted after := by
  have holding : ∀ {lock}, (state.users user).Holds lock →
      (Activity.publish routingKey data point).Holds lock := by
    intro lock holds
    rwa [publishing] at holds
  cases effect with
  | lock free =>
      refine accounted.acquires .pub rfl rfl rfl trivial ?_
      intro lock
      cases lock with
      | pub => exact Or.inl rfl
      | _ => exact Or.inr ⟨rfl, holding⟩
  | wait =>
      refine accounted.changes .pub rfl rfl (fun _ owned => nomatch owned) ?_
      intro lock
      cases lock with
      | pub => exact Or.inl rfl
      | _ => exact Or.inr ⟨rfl, holding⟩
  | relock free =>
      refine accounted.acquires .pub rfl rfl rfl trivial ?_
      intro lock
      cases lock with
      | pub => exact Or.inl rfl
      | _ => exact Or.inr ⟨rfl, holding⟩
  | lockSend free =>
      refine accounted.acquires .send rfl rfl rfl trivial ?_
      intro lock
      cases lock with
      | send => exact Or.inl rfl
      | _ => exact Or.inr ⟨rfl, holding⟩
  | send =>
      refine accounted.moves rfl rfl ?_
      intro lock thread owned
      cases lock with
      | pub => cases owned
      | send => cases owned
      | reqEvents => exact Or.inr ⟨owned, holding⟩
      | result id => exact Or.inr ⟨owned, holding⟩
  | _ =>
      refine accounted.keeps rfl rfl rfl ?_
      intro lock holds
      cases lock <;> exact holding holds

private theorem loopStep (accounted : Accounted state)
    (effect : LoopEffect env state state.loop after) : Accounted after := by
  generalize at_point : state.loop = point at effect
  have notHolding : (∀ id, ¬ point.Storing id) → ∀ id, ¬ state.loop.Storing id := by
    rw [at_point]
    exact id
  cases effect with
  | decodeFault failed => exact accounted.still rfl rfl rfl
  | lookupNull missing => exact accounted.subscript _
  | setDestroyed missing => exact accounted.still rfl rfl rfl
  | @lock id result object found free =>
      refine accounted.loopMoves rfl ?_
      intro lock thread owned
      by_cases own : lock = .result id
      · left
        subst own
        have locked : (state.setObject id { object with mutex := some .loop }).owner (.result id) =
          some thread := owned
        rw [State.owner_setObject_self] at locked
        cases locked
        exact ⟨rfl, rfl⟩
      · right
        have owner := state.owner_setObject_of_ne id { object with mutex := some .loop } own
        have same : (state.setObject id { object with mutex := some .loop }).owner lock =
          some thread := owned
        refine ⟨owner.symm.trans same, fun holds => ?_⟩
        cases lock with
        | result other => exact absurd holds (notHolding (fun _ => nofun) other)
        | _ => exact holds
  | _ => exact accounted.loopKeeps rfl rfl (notHolding fun _ => nofun)

theorem next (accounted : Accounted state) (effect : Effect env config state action after) :
    Accounted after := by
  cases effect with
  | call begun idle fresh =>
      refine accounted.keeps rfl rfl rfl ?_
      intro lock holds
      rw [idle] at holds
      exact False.elim holds
  | publish idle =>
      refine accounted.keeps rfl rfl rfl ?_
      intro lock holds
      rw [idle] at holds
      exact False.elim holds
  | callStep inCall effect => exact accounted.callStep inCall effect
  | publishStep publishing effect => exact accounted.publishStep publishing effect
  | loopStep effect => exact accounted.loopStep effect
  | @wake user status call object inCall found =>
      refine accounted.keeps rfl rfl (state.owner_setObject_of_mutex call.id _ found rfl) ?_
      intro lock holds
      rw [inCall] at holds
      cases lock <;> exact holds
  | wakePublisher publishing =>
      refine accounted.keeps rfl rfl rfl ?_
      intro lock holds
      rw [publishing] at holds
      cases lock <;> exact holds
  | deliver idle known =>
      refine accounted.loopKeeps rfl rfl ?_
      rw [idle]
      exact fun _ storing => storing
  | bindSuccess idle pending =>
      refine accounted.loopKeeps rfl rfl ?_
      rw [idle]
      exact fun _ storing => storing
  | @store notified id result object condVar storing found chosen =>
      refine accounted.loopMoves rfl ?_
      intro lock thread owned
      by_cases own : lock = .result id
      · subst own
        have free : (state.setObject id { mutex := none, condVar, done := true, result }).owner
          (.result id) = some thread := owned
        rw [State.owner_setObject_self] at free
        cases free
      · right
        have owner := state.owner_setObject_of_ne id
          { mutex := none, condVar, done := true, result } own
        have same : (state.setObject id { mutex := none, condVar, done := true, result }).owner
          lock = some thread := owned
        refine ⟨owner.symm.trans same, fun holds => ?_⟩
        cases lock with
        | result other =>
            have stores : state.loop.Storing other := holds
            rw [storing] at stores
            exact absurd (congrArg Lock.result stores.symm) own
        | _ => exact holds
  | _ => exact accounted.still rfl rfl rfl

/-- A thread begins or leaves `call_async`, where it holds no mutex. -/
private theorem outside (accounted : Accounted state) {activity : Activity}
    (users : after.users = Function.update state.users user activity)
    (loop : after.loop = state.loop) (owner : after.owner = state.owner)
    (none : ∀ lock, ¬ (state.users user).Holds lock) : Accounted after :=
  accounted.keeps users loop owner fun lock holds => absurd holds (none lock)

theorem init : Accounted {} := by
  intro lock thread owned
  cases lock <;> cases owned

end Accounted

variable {shared sharedAfter : Shared} {sharedAction : SharedAction}

/-- What a step with both ways to call can do to the client. -/
theorem sharedStep_eq_some (stepped : sharedStep env config shared sharedAction = some sharedAfter) :
    (∃ action, sharedAction = .client action ∧
      Effect env config shared.client action sharedAfter.client) ∨
    (∃ user call, shared.client.users user = .idle ∧ sharedAfter.client =
      { shared.client.put user (.call call .register) with
        ids := call.id :: shared.client.ids }) ∨
    ∃ user call, shared.client.users user = .call call .await ∧
      sharedAfter.client = shared.client.put user .idle := by
  cases sharedAction with
  | client action =>
      left
      by_cases goesOn : shared.goesOn action = true
      · rw [sharedStep, if_pos goesOn] at stepped
        obtain ⟨client, advanced, same⟩ := Option.bind_eq_some_iff.mp stepped
        cases same
        exact ⟨action, rfl, (step_effect advanced).2⟩
      · rw [sharedStep, if_neg goesOn] at stepped
        cases stepped
  | callAsync user routingKey meth args uuid =>
      right
      left
      simp only [sharedStep] at stepped
      split at stepped
      · rename_i alive idle
        by_cases used : shared.client.ids.contains (requestId uuid) = true
        · rw [if_pos used] at stepped
          cases stepped
        · rw [if_neg used] at stepped
          cases stepped
          exact ⟨user, _, idle, rfl⟩
      · cases stepped
  | returnId user =>
      right
      right
      simp only [sharedStep] at stepped
      split at stepped
      · rename_i call alive inCall
        by_cases direct : shared.direct user = true
        · rw [if_pos direct] at stepped
          cases stepped
          exact ⟨user, call, inCall, rfl⟩
        · rw [if_neg direct] at stepped
          cases stepped
      · cases stepped

theorem accounted_of_reachable (reachable : (sharedMachine env config).Reachable shared) :
    Accounted shared.client := by
  apply reachable.invariant fun shared => Accounted shared.client
  · exact Accounted.init
  · intro before next action _ accounted stepped
    rcases sharedStep_eq_some stepped with
      ⟨action, _, effect⟩ | ⟨user, call, idle, same⟩ | ⟨user, call, inCall, same⟩
    · exact accounted.next effect
    · rw [same]
      refine accounted.outside rfl rfl rfl fun lock holds => ?_
      rw [idle] at holds
      exact holds
    · rw [same]
      refine accounted.outside rfl rfl rfl fun lock holds => ?_
      rw [inCall] at holds
      cases lock with
      | result id => exact holds.2
      | _ => exact holds

/-- A client whose threads call `Caller::call` only is one of these. -/
theorem shared_of_reachable (reachable : (machine env config).Reachable state) :
    (sharedMachine env config).Reachable { client := state } := by
  apply reachable.invariant fun state => (sharedMachine env config).Reachable { client := state }
  · exact Machine.Reachable.start _
  · intro before next action _ earlier stepped
    have goesOn : Shared.goesOn { client := before } action = true := by
      unfold Shared.goesOn
      split <;> rfl
    have begins : Shared.begins { client := before } action = fun _ => false := by
      unfold Shared.begins
      split
      · exact Function.update_eq_self _ _
      · rfl
    have advanced : step env config before action = some next := stepped
    have follows : (sharedMachine env config).step { client := before } (.client action) =
        some { client := next } := by
      simp only [sharedMachine, sharedStep, goesOn, advanced, begins, if_true]
      rfl
    exact earlier.next follows

/-- Whoever holds a mutex waits at most for one of a higher rank. -/
theorem Activity.Holds.rank_lt {activity : Activity} {held awaited : Lock}
    (holds : activity.Holds held) (awaits : activity.awaits = some awaited) :
    held.rank < awaited.rank := by
  cases activity with
  | idle => exact False.elim holds
  | call call point =>
      cases point with
      | get point =>
          cases held with
          | reqEvents =>
              cases point with
              | enter =>
                  cases awaits
                  exact Nat.zero_lt_one
              | woken status =>
                  cases awaits
                  exact Nat.zero_lt_one
              | _ => cases awaits
          | result id =>
              cases point with
              | locked => cases awaits
              | resumed status => cases awaits
              | _ => exact False.elim holds.2
          | pub => exact False.elim holds
          | send => exact False.elim holds
      | register => cases held <;> first | exact False.elim holds | exact False.elim holds.2
      | send body => cases held <;> first | exact False.elim holds | exact False.elim holds.2
      | await => cases held <;> first | exact False.elim holds | exact False.elim holds.2
      | _ => cases awaits
  | publish routingKey data point =>
      cases point with
      | send =>
          cases held with
          | pub =>
              cases awaits
              exact Nat.zero_lt_one
          | _ => exact False.elim holds
      | lock => cases held <;> exact False.elim holds
      | woken => cases held <;> exact False.elim holds
      | _ => cases awaits

theorem Accounted.ordered (accounted : Accounted state) : state.locks.Ordered Lock.rank := by
  intro thread owned awaited owner awaits
  have holds := accounted owned thread owner
  cases thread with
  | user user => exact Activity.Holds.rank_lt holds awaits
  | loop =>
      cases owned with
      | result id =>
          have storing : state.loop.Storing id := holds
          have loopAwaits : state.loop.awaits = some awaited := awaits
          generalize state.loop = point at storing loopAwaits
          cases point with
          | set other result point =>
              cases point with
              | enter => exact False.elim storing
              | locked => cases loopAwaits
          | _ => exact False.elim storing
      | _ => exact False.elim holds

section Free

variable {lock : Lock}

/-- The mutex that a step acquires is free. -/
private theorem CallEffect.free {call : Call} {point : CallPoint}
    (effect : CallEffect env config state user call point after)
    (awaits : point.awaits call.id = some lock) : state.owner lock = none := by
  cases effect with
  | lockRegister free =>
      cases awaits
      exact free
  | lockSend free =>
      cases awaits
      exact free
  | lockAwait free =>
      cases awaits
      exact free
  | get found advances =>
      cases advances with
      | lock free =>
          cases awaits
          rw [State.owner_result, found]
          exact free
      | relock status free =>
          cases awaits
          rw [State.owner_result, found]
          exact free
      | _ => cases awaits
  | @getDestroyed point notThrew missing =>
      have noObject : state.owner (.result call.id) = none := by
        rw [State.owner_result, missing]
        rfl
      cases point with
      | enter =>
          cases awaits
          exact noObject
      | woken status =>
          cases awaits
          exact noObject
      | _ => cases awaits
  | _ => cases awaits

private theorem PublishEffect.free {routingKey data : Str} {point : PublishPoint}
    (effect : PublishEffect config state user routingKey data point after)
    (awaits : point.awaits = some lock) : state.owner lock = none := by
  cases effect with
  | lock free =>
      cases awaits
      exact free
  | relock free =>
      cases awaits
      exact free
  | lockSend free =>
      cases awaits
      exact free
  | _ => cases awaits

private theorem LoopEffect.free {point : LoopPoint} (effect : LoopEffect env state point after)
    (awaits : point.awaits = some lock) : state.owner lock = none := by
  cases effect with
  | lock found free =>
      cases awaits
      rw [State.owner_result, found]
      exact free
  | setDestroyed missing =>
      cases awaits
      rw [State.owner_result, missing]
      rfl
  | _ => cases awaits

/-- A thread that waits for another one has no step. -/
theorem advance_eq_none_of_waitsFor {waiter holder : Thread}
    (waits : state.locks.WaitsFor waiter holder) :
    step env config state (.advance waiter) = none := by
  obtain ⟨lock, awaits, owned⟩ := waits
  have notFree : state.owner lock ≠ none := by
    intro free
    exact Option.some_ne_none holder (owned.symm.trans free)
  rw [Option.eq_none_iff_forall_ne_some]
  intro after stepped
  apply notFree
  cases (step_effect stepped).2 with
  | @callStep user call point after inCall effect =>
      have callAwaits : (state.users user).awaits = some lock := awaits
      rw [inCall] at callAwaits
      exact effect.free callAwaits
  | @publishStep user routingKey data point after publishing effect =>
      have publishAwaits : (state.users user).awaits = some lock := awaits
      rw [publishing] at publishAwaits
      exact effect.free publishAwaits
  | loopStep effect => exact effect.free awaits

end Free

/-- Inside its critical section a step of `get` gives the mutex back. -/
theorem exists_release {object : AsyncResult Thread} {thread : Thread} {point : GetPoint}
    (owns : CallPoint.OwnsObject (.get point)) :
    ∃ moved next, AsyncResult.GetEffect object thread point moved next ∧ moved.mutex = none := by
  cases point with
  | locked =>
      cases done : object.done with
      | true => exact ⟨_, _, AsyncResult.GetEffect.take done, rfl⟩
      | false => exact ⟨_, _, AsyncResult.GetEffect.block done, rfl⟩
  | resumed status =>
      cases status with
      | timeout => exact ⟨_, _, AsyncResult.GetEffect.throw, rfl⟩
      | noTimeout => exact ⟨_, _, AsyncResult.GetEffect.resume, rfl⟩
  | _ => exact False.elim owns

/-- The event loop waits only for a caller inside the critical section of
`get`. -/
private theorem Accounted.loop_waitsFor (accounted : Accounted state)
    (waits : state.locks.WaitsFor .loop (.user user)) :
    ∃ call point object result, state.loop = .set call.id result .enter ∧
      state.users user = .call call (.get point) ∧ CallPoint.OwnsObject (.get point) ∧
      state.object call.id = some object := by
  obtain ⟨lock, awaits, owned⟩ := waits
  have holds : (state.users user).Holds lock := accounted lock (.user user) owned
  have loopAwaits : state.loop.awaits = some lock := awaits
  cases at_point : state.loop with
  | set id result point =>
      rw [at_point] at loopAwaits
      cases point with
      | locked => cases loopAwaits
      | enter =>
          cases loopAwaits
          cases activity : state.users user with
          | call call point =>
              rw [activity] at holds
              obtain ⟨rfl, owns⟩ := holds
              cases point with
              | get point =>
                  cases found : state.object call.id with
                  | none =>
                      have isOwned : state.owner (.result call.id) = some (.user user) := owned
                      rw [State.owner_result, found] at isOwned
                      cases isOwned
                  | some object => exact ⟨call, point, object, result, rfl, rfl, owns, found⟩
              | _ => exact False.elim owns
          | idle =>
              rw [activity] at holds
              exact False.elim holds
          | publish routingKey data point =>
              rw [activity] at holds
              exact False.elim holds
  | _ =>
      rw [at_point] at loopAwaits
      cases loopAwaits

private theorem advance_of_callEffect {call : Call} {point : CallPoint}
    (alive : state.fault = none) (inCall : state.users user = .call call point)
    (effect : CallEffect env config state user call point after) :
    step env config state (.advance (.user user)) = some after := by
  unfold step
  simp only [alive, inCall, Option.isSome_none]
  exact callStep_eq_some.mpr effect

/-- The next step of the caller ends the wait of the event loop. -/
private theorem Accounted.loop_released (accounted : Accounted state) (alive : state.fault = none)
    (waits : state.locks.WaitsFor .loop (.user user)) :
    ∃ next, step env config state (.advance (.user user)) = some next ∧
      ∀ holder, ¬ next.locks.WaitsFor .loop holder := by
  obtain ⟨call, point, object, result, storing, inCall, owns, found⟩ :=
    accounted.loop_waitsFor waits
  obtain ⟨moved, next, advanced, free⟩ : ∃ moved next,
      AsyncResult.GetEffect object (.user user) point moved next ∧ moved.mutex = none :=
    exists_release owns
  refine ⟨_, advance_of_callEffect alive inCall (CallEffect.get found advanced), ?_⟩
  intro holder still
  obtain ⟨lock, awaits, owned⟩ := still
  have loopAwaits : state.loop.awaits = some lock := awaits
  rw [storing] at loopAwaits
  cases loopAwaits
  have owner : (state.setObject call.id moved).owner (.result call.id) = some holder := owned
  rw [State.owner_setObject_self, free] at owner
  cases owner

/-- Threads never wait for mutexes in a circle.  The event loop never waits for
a mutex of a thread that waits for its reply, and the thread it waits for gives
the mutex back in its next step. -/
theorem not_deadlock_of_reachable (reachable : (sharedMachine env config).Reachable shared) :
    ¬ shared.client.locks.Deadlock ∧
      ∀ user, shared.client.locks.WaitsFor .loop (.user user) →
        ¬ (shared.client.users user).WaitsForReply ∧
          (shared.client.fault = none →
            ∃ next, step env config shared.client (.advance (.user user)) = some next ∧
              ∀ holder, ¬ next.locks.WaitsFor .loop holder) := by
  have accounted := accounted_of_reachable reachable
  refine ⟨accounted.ordered.not_deadlock, fun user waits => ⟨?_, ?_⟩⟩
  · intro waitsForReply
    obtain ⟨call, point, object, result, _, inCall, owns, _⟩ := accounted.loop_waitsFor waits
    rw [inCall] at waitsForReply
    cases point with
    | blocked => exact owns
    | woken status => exact owns
    | _ => exact waitsForReply
  · intro alive
    exact accounted.loop_released alive waits

/-- A reply arrives while its caller tests `done_`.  Another thread has called
`call_async`. -/
def loopBlocked : List SharedAction :=
  .callAsync 1 (ascii "q") [] [] (ascii "2") ::
    List.replicate 5 (.client (.advance (.user 1))) ++ [.returnId 1] ++
    (sentCall.take 9).map SharedAction.client ++
    [.client (.deliver ⟨ascii "corr-1", ascii "[1,\"corr-1\",\"\",3]"⟩),
      .client (.advance .loop), .client (.advance .loop)]

def loopWaitsFor (state : State) (holder : Thread) : Bool :=
  (state.loop.awaits.bind state.owner) == some holder

theorem loopWaitsFor_sound {holder : Thread} (passed : loopWaitsFor state holder = true) :
    state.locks.WaitsFor .loop holder := by
  obtain ⟨lock, awaits, owned⟩ := Option.bind_eq_some_iff.mp (eq_of_beq passed)
  exact ⟨lock, awaits, owned⟩

theorem not_deadlock_loopBlocked :
    ∃ shared, (sharedMachine ⟨codec, false⟩ exampleConfig).Run Machine.always loopBlocked shared ∧
      shared.client.locks.WaitsFor .loop (.user 0) ∧ ¬ shared.client.locks.Deadlock ∧
      ¬ (shared.client.users 0).WaitsForReply := by
  have reached : (((sharedMachine ⟨codec, false⟩ exampleConfig).exec loopBlocked
      (sharedMachine ⟨codec, false⟩ exampleConfig).init).any fun shared =>
        loopWaitsFor shared.client (.user 0)) = true := by
    decide +kernel
  obtain ⟨shared, run, passed⟩ := Machine.Run.of_exec_any (fun _ _ _ => trivial) reached
  have waits := loopWaitsFor_sound passed
  obtain ⟨noDeadlock, loop⟩ := not_deadlock_of_reachable run.reachable
  exact ⟨shared, run, waits, noDeadlock, (loop 0 waits).1⟩

end Client

end Ccmqsrv
