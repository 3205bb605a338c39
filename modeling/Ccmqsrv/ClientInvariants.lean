import Ccmqsrv.Client

/-!
# Invariants of the client

These hold in every reachable state of the client, whatever is delivered to it
and however its threads wake up.  Calls in progress have ids of their own, the
thread that holds `req_events_mtx` is inside `Caller::call` or `call_async`,
and the entry of a registered call is an object that only this call and the
event loop use.
-/

namespace Ccmqsrv

open Foundations

namespace Client

/-- The call is about to be registered. -/
def CallPoint.Unregistered : CallPoint → Prop
  | .register => True
  | .registering => True
  | _ => False

/-- The call has an entry in the table of pending requests. -/
def CallPoint.Registered : CallPoint → Prop
  | .register => False
  | .registering => False
  | .finish _ => False
  | _ => True

/-- The call holds `req_events_mtx`. -/
def CallPoint.HoldsTable : CallPoint → Prop
  | .registering => True
  | .lookup => True
  | .get _ => True
  | .erase _ => True
  | _ => False

/-- The call holds the mutex of its result. -/
def CallPoint.OwnsObject : CallPoint → Prop
  | .get .locked => True
  | .get (.resumed _) => True
  | _ => False

/-- The call has not taken its result yet. -/
def CallPoint.BeforeTake : CallPoint → Prop
  | .get .returned => False
  | .get .threw => False
  | .erase _ => False
  | .finish _ => False
  | _ => True

/-- The event loop is handling a reply to the call with this id. -/
def LoopPoint.Handles (id : Str) : LoopPoint → Prop
  | .decode response => response.correlationID = id
  | .lookup other _ => other = id
  | .set other _ _ => other = id
  | _ => False

/-- The event loop holds the mutex of the result of the call with this id. -/
def LoopPoint.Storing (id : Str) : LoopPoint → Prop
  | .set other _ .locked => other = id
  | _ => False

theorem LoopPoint.Storing.handles {id : Str} {point : LoopPoint} (storing : point.Storing id) :
    point.Handles id := by
  cases point with
  | set other result point =>
      cases point with
      | enter => exact False.elim storing
      | locked => exact storing
  | _ => exact False.elim storing

/-- The thread is not inside a call. -/
def Activity.Rests : Activity → Prop
  | .idle => True
  | .call _ _ => False
  | .publish _ _ _ => True

/-- The thread holds `req_events_mtx`. -/
def State.HoldsTable (state : State) : Thread → Prop
  | .loop => False
  | .user user =>
      match state.users user with
      | .call _ point => point.HoldsTable
      | _ => False

/-- The event is about the call with this id. -/
def Event.About (id : Str) : Event → Prop
  | .refused _ _ => False
  | .sent call _ => call.id = id
  | .delivered response found => found = true ∧ response.correlationID = id
  | .stored other _ => other = id
  | .left other => other = id
  | .ended call _ => call.id = id

variable {env : Env} {config : Config} {state after : State} {action : Action}

/-- What a step does to the calls in progress. -/
inductive CallsChange (state after : State) : Prop
  | same : after.users = state.users → after.ids = state.ids → CallsChange state after
  | continues {user : Nat} {call : Call} {point next : CallPoint} :
      state.users user = .call call point →
        after.users = Function.update state.users user (.call call next) →
          (next.Unregistered → point.Unregistered) → after.ids = state.ids →
            CallsChange state after
  | rests {user : Nat} {activity : Activity} :
      after.users = Function.update state.users user activity → activity.Rests →
        after.ids = state.ids → CallsChange state after
  | begins {user : Nat} {call : Call} :
      call.id ∉ state.ids →
        after.users = Function.update state.users user (.call call .register) →
          after.ids = call.id :: state.ids → CallsChange state after

/-- What `publish` leaves alone. -/
structure PublishFrame (state after : State) (user : Nat) : Prop where
  users : ∃ activity, after.users = Function.update state.users user activity ∧
    activity.Rests
  ids : after.ids = state.ids
  reqEvents : after.reqEvents = state.reqEvents
  reqEventsMtx : after.reqEventsMtx = state.reqEventsMtx
  loop : after.loop = state.loop
  history : after.history = state.history
  fault : after.fault = state.fault

theorem PublishEffect.frame {user : Nat} {routingKey data : Str} {point : PublishPoint}
    (effect : PublishEffect config state user routingKey data point after) :
    PublishFrame state after user := by
  cases effect <;> exact
    { users := ⟨_, rfl, trivial⟩
      ids := rfl
      reqEvents := rfl
      reqEventsMtx := rfl
      loop := rfl
      history := rfl
      fault := rfl }

theorem State.subscript_frame (state : State) (id : Str) :
    (state.subscript id).users = state.users ∧ (state.subscript id).ids = state.ids := by
  obtain ⟨reqEvents, same⟩ := state.subscript_eq id
  rw [same]
  exact ⟨rfl, rfl⟩

theorem Effect.callsChange (effect : Effect env config state action after) :
    CallsChange state after := by
  cases effect with
  | call begun idle fresh => exact CallsChange.begins fresh rfl rfl
  | callRefused => exact CallsChange.same rfl rfl
  | publishRefused => exact CallsChange.same rfl rfl
  | publish idle => exact CallsChange.rests rfl trivial rfl
  | callStep activity effect =>
      cases effect with
      | lookupNull missing =>
          obtain ⟨users, ids⟩ := state.subscript_frame _
          exact CallsChange.same users ids
      | getDestroyed notThrew missing => exact CallsChange.same rfl rfl
      | encodeFault failed => exact CallsChange.rests rfl trivial rfl
      | throw => exact CallsChange.rests rfl trivial rfl
      | finish => exact CallsChange.rests rfl trivial rfl
      | lockRegister free => exact CallsChange.continues activity rfl (fun _ => trivial) rfl
      | _ => exact CallsChange.continues activity rfl False.elim rfl
  | publishStep activity effect =>
      have frame := effect.frame
      obtain ⟨next, users, rests⟩ := frame.users
      exact CallsChange.rests users rests frame.ids
  | loopStep effect =>
      generalize state.loop = point at effect
      cases effect with
      | lookupNull missing =>
          obtain ⟨users, ids⟩ := state.subscript_frame _
          exact CallsChange.same users ids
      | _ => exact CallsChange.same rfl rfl
  | wake activity found => exact CallsChange.continues activity rfl False.elim rfl
  | wakePublisher activity => exact CallsChange.rests rfl trivial rfl
  | _ => exact CallsChange.same rfl rfl

theorem CallsChange.ids_subset (change : CallsChange state after) : state.ids ⊆ after.ids := by
  intro id known
  cases change with
  | same users ids => rwa [ids]
  | continues inCall users _ ids => rwa [ids]
  | rests users rests ids => rwa [ids]
  | begins fresh users ids =>
      rw [ids]
      exact List.mem_cons_of_mem _ known

theorem eq_call_of_update {users : Nat → Activity} {user other : Nat} {activity : Activity}
    {call : Call} {point : CallPoint}
    (inCall : Function.update users user activity other = .call call point) :
    (other = user ∧ activity = .call call point) ∨
      (other ≠ user ∧ users other = .call call point) := by
  by_cases same : other = user
  · subst same
    rw [Function.update_self] at inCall
    exact Or.inl ⟨rfl, inCall⟩
  · rw [Function.update_of_ne same] at inCall
    exact Or.inr ⟨same, inCall⟩

/-- Calls in progress have ids that were generated, each for one call. -/
structure DistinctIds (state : State) : Prop where
  known : ∀ {user : Nat} {call : Call} {point : CallPoint},
    state.users user = .call call point → call.id ∈ state.ids
  unique : ∀ {user other : Nat} {call otherCall : Call} {point otherPoint : CallPoint},
    state.users user = .call call point → state.users other = .call otherCall otherPoint →
      call.id = otherCall.id → user = other

/-- A call in progress after a step was in progress before, or its id is new. -/
theorem CallsChange.before (change : CallsChange state after) {user : Nat} {call : Call}
    {point : CallPoint} (inCall : after.users user = .call call point) :
    (call.id ∉ state.ids ∧ call.id ∈ after.ids ∧
        ∀ other, other ≠ user → after.users other = state.users other) ∨
      ∃ earlier, state.users user = .call call earlier := by
  cases change with
  | same users ids =>
      rw [users] at inCall
      exact Or.inr ⟨point, inCall⟩
  | continues earlier users _ ids =>
      rw [users] at inCall
      rcases eq_call_of_update inCall with ⟨rfl, same⟩ | ⟨_, same⟩
      · cases same
        exact Or.inr ⟨_, earlier⟩
      · exact Or.inr ⟨point, same⟩
  | rests users rests ids =>
      rw [users] at inCall
      rcases eq_call_of_update inCall with ⟨_, rfl⟩ | ⟨_, same⟩
      · exact False.elim rests
      · exact Or.inr ⟨point, same⟩
  | begins fresh users ids =>
      rw [users] at inCall
      rcases eq_call_of_update inCall with ⟨rfl, same⟩ | ⟨_, same⟩
      · cases same
        refine Or.inl ⟨fresh, ?_, fun other different => ?_⟩
        · rw [ids]
          exact List.mem_cons_self
        · rw [users, Function.update_of_ne different]
      · exact Or.inr ⟨point, same⟩

theorem DistinctIds.next (distinct : DistinctIds state) (change : CallsChange state after) :
    DistinctIds after := by
  constructor
  · intro user call point inCall
    rcases change.before inCall with ⟨_, known, _⟩ | ⟨_, earlier⟩
    · exact known
    · exact change.ids_subset (distinct.known earlier)
  · intro left right leftCall rightCall leftPoint rightPoint leftLater rightLater same
    by_contra different
    rcases change.before leftLater with ⟨leftNew, _, others⟩ | ⟨_, leftEarlier⟩
    · rw [others right (Ne.symm different)] at rightLater
      exact leftNew (same ▸ distinct.known rightLater)
    · rcases change.before rightLater with ⟨rightNew, _, _⟩ | ⟨_, rightEarlier⟩
      · exact rightNew (same ▸ distinct.known leftEarlier)
      · exact different (distinct.unique leftEarlier rightEarlier same)

/-- `req_events_mtx` is owned by the thread that is in a block it guards. -/
def TableOwned (state : State) : Prop :=
  state.reqEventsMtx.Owned state.HoldsTable

private theorem holdsTable_user {user : Nat} {call : Call} {point : CallPoint}
    (inCall : state.users user = .call call point) :
    state.HoldsTable (.user user) ↔ point.HoldsTable := by
  simp only [State.HoldsTable, inCall]

private theorem holdsTable_rests {user : Nat} (rests : (state.users user).Rests) :
    ¬ state.HoldsTable (.user user) := by
  cases activity : state.users user with
  | call call point =>
      rw [activity] at rests
      exact False.elim rests
  | _ => simp [State.HoldsTable, activity]

private theorem holdsTable_other {user : Nat} {activity : Activity}
    (users : after.users = Function.update state.users user activity) (thread : Thread)
    (different : thread ≠ .user user) :
    after.HoldsTable thread ↔ state.HoldsTable thread := by
  cases thread with
  | loop => exact Iff.rfl
  | user other =>
      have notSame : other ≠ user := fun same => different (congrArg Thread.user same)
      simp only [State.HoldsTable, users, Function.update_of_ne notSame]

private theorem TableOwned.keep (owned : TableOwned state) {user : Nat} {activity : Activity}
    (users : after.users = Function.update state.users user activity)
    (mutex : after.reqEventsMtx = state.reqEventsMtx)
    (same : after.HoldsTable (.user user) ↔ state.HoldsTable (.user user)) :
    TableOwned after := by
  unfold TableOwned
  rw [mutex]
  apply owned.congr
  intro thread
  by_cases isUser : thread = .user user
  · subst isUser
    exact same
  · exact holdsTable_other users thread isUser

private theorem TableOwned.acquire (owned : TableOwned state) {user : Nat} {call : Call}
    {point : CallPoint} (free : state.reqEventsMtx = none)
    (users : after.users = Function.update state.users user (.call call point))
    (mutex : after.reqEventsMtx = some (.user user)) (holds : point.HoldsTable) :
    TableOwned after := by
  have inCall : after.users user = .call call point := by
    rw [users, Function.update_self]
  unfold TableOwned
  rw [mutex]
  apply Mutex.Owned.acquire owned free
  · exact (holdsTable_user inCall).mpr holds
  · intro other different inside
    exact (holdsTable_other users other different).mp inside

private theorem TableOwned.release (owned : TableOwned state) {user : Nat} {activity : Activity}
    (holds : state.HoldsTable (.user user))
    (users : after.users = Function.update state.users user activity)
    (mutex : after.reqEventsMtx = none) (leaves : ¬ after.HoldsTable (.user user)) :
    TableOwned after := by
  unfold TableOwned
  rw [mutex]
  apply Mutex.Owned.release owned holds leaves
  intro other different inside
  exact (holdsTable_other users other different).mp inside

private theorem TableOwned.keepCall (owned : TableOwned state) {user : Nat} {call : Call}
    {point next : CallPoint} (inCall : state.users user = .call call point)
    (users : after.users = Function.update state.users user (.call call next))
    (mutex : after.reqEventsMtx = state.reqEventsMtx)
    (same : next.HoldsTable ↔ point.HoldsTable) : TableOwned after := by
  have later : after.users user = .call call next := by
    rw [users, Function.update_self]
  apply owned.keep users mutex
  rw [holdsTable_user inCall, holdsTable_user later]
  exact same

private theorem TableOwned.rest (owned : TableOwned state) {user : Nat} {activity : Activity}
    (before : ¬ state.HoldsTable (.user user))
    (users : after.users = Function.update state.users user activity) (rests : activity.Rests)
    (mutex : after.reqEventsMtx = state.reqEventsMtx) : TableOwned after := by
  have later : (after.users user).Rests := by
    rw [users, Function.update_self]
    exact rests
  apply owned.keep users mutex
  exact iff_of_false (holdsTable_rests later) before

private theorem TableOwned.callStep (owned : TableOwned state) {user : Nat} {call : Call}
    {point : CallPoint} (inCall : state.users user = .call call point)
    (effect : CallEffect env config state user call point after) : TableOwned after := by
  have holds_iff := holdsTable_user inCall
  cases effect with
  | lockRegister free => exact owned.acquire free rfl rfl trivial
  | lockAwait free => exact owned.acquire free rfl rfl trivial
  | register =>
      apply owned.release (holds_iff.mpr trivial) rfl rfl
      rw [holdsTable_user (Function.update_self ..)]
      exact id
  | erase =>
      apply owned.release (holds_iff.mpr trivial) rfl rfl
      rw [holdsTable_user (Function.update_self ..)]
      exact id
  | throw =>
      apply owned.release (holds_iff.mpr trivial) rfl rfl
      apply holdsTable_rests
      simp only [State.record, State.put_self]
      trivial
  | encode encoded => exact owned.keepCall inCall rfl rfl Iff.rfl
  | encodeFault failed => exact owned.rest (holds_iff.mp ·) rfl trivial rfl
  | lockSend free => exact owned.keepCall inCall rfl rfl Iff.rfl
  | send => exact owned.keepCall inCall rfl rfl Iff.rfl
  | lookup found => exact owned.keepCall inCall rfl rfl Iff.rfl
  | get found advanced => exact owned.keepCall inCall rfl rfl Iff.rfl
  | move found => exact owned.keepCall inCall rfl rfl Iff.rfl
  | finish => exact owned.rest (holds_iff.mp ·) rfl trivial rfl
  | getDestroyed notThrew missing => exact owned
  | lookupNull missing =>
      obtain ⟨reqEvents, same⟩ := state.subscript_eq call.id
      rw [same]
      exact owned

theorem TableOwned.next (owned : TableOwned state)
    (effect : Effect env config state action after) : TableOwned after := by
  cases effect with
  | @call user _ _ _ _ call _ idle fresh =>
      have before : ¬ state.HoldsTable (.user user) := by
        apply holdsTable_rests
        rw [idle]
        trivial
      refine @TableOwned.keep state _ owned user (.call call .register) rfl rfl ?_
      rw [holdsTable_user (Function.update_self ..)]
      exact iff_of_false id before
  | callRefused => exact owned
  | publishRefused => exact owned
  | @publish user _ _ _ _ idle =>
      have before : ¬ state.HoldsTable (.user user) := by
        apply holdsTable_rests
        rw [idle]
        trivial
      exact owned.rest before rfl trivial rfl
  | callStep inCall effect => exact owned.callStep inCall effect
  | @publishStep user _ _ _ _ activity effect =>
      have frame := effect.frame
      obtain ⟨next, users, rests⟩ := frame.users
      have before : ¬ state.HoldsTable (.user user) := by
        apply holdsTable_rests
        rw [activity]
        trivial
      exact owned.rest before users rests frame.reqEventsMtx
  | loopStep effect =>
      generalize state.loop = point at effect
      cases effect with
      | @lookupNull id result missing =>
          obtain ⟨reqEvents, same⟩ := state.subscript_eq id
          rw [same]
          exact owned
      | _ => exact owned
  | wake inCall found => exact owned.keepCall inCall rfl rfl Iff.rfl
  | @wakePublisher user _ _ activity =>
      have before : ¬ state.HoldsTable (.user user) := by
        apply holdsTable_rests
        rw [activity]
        trivial
      exact owned.rest before rfl trivial rfl
  | _ => exact owned

/-- Nothing was done yet for a call with this id. -/
structure Untouched (state : State) (id : Str) : Prop where
  entry : state.reqEvents.lookup id = none
  loop : ¬ state.loop.Handles id
  history : ∀ event ∈ state.history, ¬ event.About id

variable {id : Str}

theorem Untouched.object (untouched : Untouched state id) : state.object id = none := by
  unfold State.object
  rw [untouched.entry]
  rfl

private theorem Untouched.of_frame (untouched : Untouched state id) {events : List Event}
    (entry : after.reqEvents.lookup id = state.reqEvents.lookup id)
    (loop : after.loop.Handles id → state.loop.Handles id)
    (history : after.history = state.history ++ events)
    (others : ∀ event ∈ events, ¬ event.About id) : Untouched after id := by
  constructor
  · rw [entry]
    exact untouched.entry
  · exact fun handles => untouched.loop (loop handles)
  · rw [history]
    intro event member
    rcases List.mem_append.mp member with old | new
    · exact untouched.history event old
    · exact others event new

private theorem Untouched.quiet (untouched : Untouched state id)
    (entry : after.reqEvents.lookup id = state.reqEvents.lookup id)
    (loop : after.loop.Handles id → state.loop.Handles id)
    (history : after.history = state.history) : Untouched after id := by
  have silent : after.history = state.history ++ [] := by
    rw [history, List.append_nil]
  exact untouched.of_frame entry loop silent (by simp)

private theorem State.setObject_lookup {other : Str} (different : id ≠ other)
    (object : AsyncResult Thread) :
    (state.setObject other object).reqEvents.lookup id = state.reqEvents.lookup id :=
  OrderedMap.lookup_insert_of_ne _ _ different

private theorem State.subscript_lookup {other : Str} (different : id ≠ other) :
    (state.subscript other).reqEvents.lookup id = state.reqEvents.lookup id := by
  unfold State.subscript
  split
  · rfl
  · exact OrderedMap.lookup_insert_of_ne _ _ different

theorem State.subscript_keeps (id : Str) :
    (state.subscript id).loop = state.loop ∧ (state.subscript id).history = state.history := by
  obtain ⟨reqEvents, same⟩ := state.subscript_eq id
  rw [same]
  exact ⟨rfl, rfl⟩

private theorem Untouched.subscript (untouched : Untouched state id) {other : Str}
    (different : id ≠ other) : Untouched (state.subscript other).undefined id := by
  obtain ⟨loop, history⟩ := state.subscript_keeps other
  have sameLoop : (state.subscript other).undefined.loop.Handles id → state.loop.Handles id := by
    show (state.subscript other).loop.Handles id → _
    rw [loop]
    exact fun handles => handles
  exact untouched.quiet (State.subscript_lookup different) sameLoop history

theorem leaving_about {other : Str} {point : GetPoint} {event : Event} (different : id ≠ other)
    (member : event ∈ leaving other point) : ¬ event.About id := by
  have notSame : other ≠ id := Ne.symm different
  cases point <;> simp [leaving] at member <;> (subst member; exact notSame)

/-- A call touches its own id only, and not before it is registered. -/
private theorem Untouched.callStep (untouched : Untouched state id) {user : Nat} {call : Call}
    {point : CallPoint} (effect : CallEffect env config state user call point after)
    (notOwn : call.id = id → point = .register) : Untouched after id := by
  by_cases own : call.id = id
  · have atRegister := notOwn own
    subst atRegister
    cases effect with
    | lockRegister free => exact untouched.quiet rfl (fun handles => handles) rfl
  · have different : id ≠ call.id := Ne.symm own
    have inserted := @State.setObject_lookup state id call.id different
    cases effect with
    | lockRegister free => exact untouched.quiet rfl (fun handles => handles) rfl
    | register => exact untouched.quiet (inserted _) (fun handles => handles) rfl
    | encode encoded => exact untouched.quiet rfl (fun handles => handles) rfl
    | encodeFault failed =>
        refine untouched.of_frame rfl (fun handles => handles) rfl ?_
        exact List.forall_mem_singleton.mpr own
    | lockSend free => exact untouched.quiet rfl (fun handles => handles) rfl
    | send =>
        refine untouched.of_frame rfl (fun handles => handles) rfl ?_
        exact List.forall_mem_singleton.mpr own
    | lockAwait free => exact untouched.quiet rfl (fun handles => handles) rfl
    | lookup found => exact untouched.quiet rfl (fun handles => handles) rfl
    | lookupNull missing => exact untouched.subscript different
    | get found advanced =>
        refine untouched.of_frame (inserted _) (fun handles => handles) rfl ?_
        intro event member
        exact leaving_about different member
    | move found => exact untouched.quiet (inserted _) (fun handles => handles) rfl
    | getDestroyed notThrew missing => exact untouched.quiet rfl (fun handles => handles) rfl
    | throw =>
        refine untouched.of_frame rfl (fun handles => handles) rfl ?_
        exact List.forall_mem_singleton.mpr own
    | erase =>
        have erased : (state.reqEvents.erase call.id).lookup id = state.reqEvents.lookup id :=
          OrderedMap.lookup_erase_of_ne _ different
        exact untouched.quiet erased (fun handles => handles) rfl
    | finish =>
        refine untouched.of_frame rfl (fun handles => handles) rfl ?_
        exact List.forall_mem_singleton.mpr own

private theorem Untouched.loopStep (untouched : Untouched state id)
    (effect : LoopEffect env state state.loop after) : Untouched after id := by
  have notHandled := untouched.loop
  generalize at_point : state.loop = point at effect notHandled
  have kept : ∀ {next : LoopPoint}, (next.Handles id → point.Handles id) →
      next.Handles id → state.loop.Handles id :=
    fun implies handles => absurd (implies handles) notHandled
  cases effect with
  | decode decoded => exact untouched.quiet rfl (kept fun handles => handles) rfl
  | decodeFault failed => exact untouched.quiet rfl (fun handles => handles) rfl
  | lookup found => exact untouched.quiet rfl (kept fun handles => handles) rfl
  | lookupNull missing => exact untouched.subscript (Ne.symm notHandled)
  | lock found free =>
      have inserted := @State.setObject_lookup state id _ (Ne.symm notHandled)
      exact untouched.quiet (inserted _) (kept fun handles => handles) rfl
  | setDestroyed missing => exact untouched.quiet rfl (fun handles => handles) rfl
  | notify => exact untouched.quiet rfl (kept fun handles => handles) rfl

/-- A step leaves an id untouched unless it is taken by the call with this id. -/
theorem Untouched.next (untouched : Untouched state id)
    (effect : Effect env config state action after)
    (notOwn : ∀ {user : Nat} {call : Call} {point : CallPoint},
      state.users user = .call call point → action = .advance (.user user) → call.id = id →
        point = .register) :
    Untouched after id := by
  have different_of_object : ∀ {other : Str} {object : AsyncResult Thread},
      state.object other = some object → id ≠ other := by
    intro other object found same
    rw [← same, untouched.object] at found
    cases found
  cases effect with
  | call begun idle fresh => exact untouched.quiet rfl (fun handles => handles) rfl
  | callRefused =>
      refine untouched.of_frame rfl (fun handles => handles) rfl ?_
      exact List.forall_mem_singleton.mpr fun about => about
  | publishRefused =>
      refine untouched.of_frame rfl (fun handles => handles) rfl ?_
      exact List.forall_mem_singleton.mpr fun about => about
  | publish idle => exact untouched.quiet rfl (fun handles => handles) rfl
  | callStep inCall effect => exact untouched.callStep effect (notOwn inCall rfl)
  | publishStep activity effect =>
      have frame := effect.frame
      refine untouched.quiet ?_ ?_ frame.history
      · rw [frame.reqEvents]
      · rw [frame.loop]
        exact fun handles => handles
  | loopStep effect => exact untouched.loopStep effect
  | wake inCall found =>
      have inserted := @State.setObject_lookup state id _ (different_of_object found)
      exact untouched.quiet (inserted _) (fun handles => handles) rfl
  | wakeDestroyed inCall missing => exact untouched.quiet rfl (fun handles => handles) rfl
  | wakePublisher activity => exact untouched.quiet rfl (fun handles => handles) rfl
  | @deliver response waiting found =>
      have different : ¬ response.correlationID = id := by
        intro same
        rw [same, untouched.entry] at found
        cases found
      refine untouched.of_frame rfl (fun handles => absurd handles different) rfl ?_
      exact List.forall_mem_singleton.mpr fun about => different about.2
  | deliverUnknown waiting missing =>
      refine untouched.of_frame rfl (fun handles => handles) rfl ?_
      exact List.forall_mem_singleton.mpr fun about => Bool.noConfusion about.1
  | store at_point found notified =>
      have different := different_of_object found
      have inserted := @State.setObject_lookup state id _ different
      refine untouched.of_frame (inserted _) (fun handles => False.elim handles) rfl ?_
      exact List.forall_mem_singleton.mpr (Ne.symm different)
  | storeDestroyed at_point missing => exact untouched.quiet rfl (fun handles => handles) rfl
  | bindSuccess waiting pending => exact untouched.quiet rfl (fun handles => False.elim handles) rfl

/-- An id that was not generated, or whose call is not registered yet. -/
def FreshId (state : State) (id : Str) : Prop :=
  id ∉ state.ids ∨ ∃ user call point, state.users user = .call call point ∧
    point.Unregistered ∧ call.id = id

/-- Nothing is done for an id before its call is registered. -/
def FreshUntouched (state : State) : Prop :=
  ∀ id, FreshId state id → Untouched state id

private theorem FreshId.before (fresh : FreshId after id) (change : CallsChange state after) :
    FreshId state id := by
  rcases fresh with unknown | ⟨user, call, point, inCall, unregistered, rfl⟩
  · exact Or.inl fun known => unknown (change.ids_subset known)
  · cases change with
    | same users ids =>
        rw [users] at inCall
        exact Or.inr ⟨user, call, point, inCall, unregistered, rfl⟩
    | continues earlier users begins ids =>
        rw [users] at inCall
        rcases eq_call_of_update inCall with ⟨rfl, same⟩ | ⟨_, same⟩
        · cases same
          exact Or.inr ⟨_, _, _, earlier, begins unregistered, rfl⟩
        · exact Or.inr ⟨user, call, point, same, unregistered, rfl⟩
    | rests users rests ids =>
        rw [users] at inCall
        rcases eq_call_of_update inCall with ⟨_, rfl⟩ | ⟨_, same⟩
        · exact absurd rests (fun impossible => impossible)
        · exact Or.inr ⟨user, call, point, same, unregistered, rfl⟩
    | begins fresh users ids =>
        rw [users] at inCall
        rcases eq_call_of_update inCall with ⟨_, same⟩ | ⟨_, same⟩
        · cases same
          exact Or.inl fresh
        · exact Or.inr ⟨user, call, point, same, unregistered, rfl⟩

theorem CallEffect.users_of_ne {user other : Nat} {call : Call} {point : CallPoint}
    (effect : CallEffect env config state user call point after) (different : other ≠ user) :
    after.users other = state.users other := by
  cases effect with
  | lookupNull missing => exact congrFun (state.subscript_frame _).1 other
  | getDestroyed notThrew missing => rfl
  | _ => exact Function.update_of_ne different ..

theorem CallEffect.object_of_ne {user : Nat} {call : Call} {point : CallPoint}
    (effect : CallEffect env config state user call point after) {id : Str}
    (different : id ≠ call.id) : after.object id = state.object id := by
  have inserted := fun object => State.object_setObject_of_ne state call.id object different
  cases effect with
  | register => exact inserted _
  | lookupNull missing => exact state.object_subscript call.id id
  | get found advanced => exact inserted _
  | move found => exact inserted _
  | erase =>
      unfold State.object
      rw [OrderedMap.lookup_erase_of_ne _ different]
  | _ => rfl

theorem CallEffect.loop_eq {user : Nat} {call : Call} {point : CallPoint}
    (effect : CallEffect env config state user call point after) : after.loop = state.loop := by
  cases effect with
  | lookupNull missing => exact (state.subscript_keeps call.id).1
  | _ => rfl

/-- After the first step of a call it is being registered or registered. -/
private theorem CallEffect.not_unregistered {user : Nat} {call : Call} {point : CallPoint}
    (inCall : state.users user = .call call point)
    (effect : CallEffect env config state user call point after)
    (notRegister : point ≠ .register) {later : Call} {next : CallPoint}
    (stillInCall : after.users user = .call later next) : ¬ next.Unregistered := by
  have updated : ∀ {activity : Activity},
      Function.update state.users user activity user = .call later next →
        activity = .call later next := by
    intro activity same
    rwa [Function.update_self] at same
  cases effect with
  | lockRegister free => exact absurd rfl notRegister
  | lookupNull missing =>
      have kept := congrFun (state.subscript_frame call.id).1 user
      have same := inCall.symm.trans (kept.symm.trans stillInCall)
      cases same
      exact fun impossible => impossible
  | getDestroyed notThrew missing =>
      have same := inCall.symm.trans stillInCall
      cases same
      exact fun impossible => impossible
  | _ =>
      have same := updated stillInCall
      cases same <;> exact fun impossible => impossible

theorem FreshUntouched.next (untouched : FreshUntouched state) (distinct : DistinctIds state)
    (effect : Effect env config state action after) : FreshUntouched after := by
  intro id fresh
  have change := effect.callsChange
  apply (untouched id (fresh.before change)).next effect
  intro user call point inCall advanced sameId
  by_contra notRegister
  subst advanced
  cases effect with
  | publishStep activity effect =>
      rw [activity] at inCall
      cases inCall
  | callStep stepping effect =>
      have same := inCall.symm.trans stepping
      cases same
      rcases fresh with unknown | ⟨other, otherCall, otherPoint, otherInCall, unregistered, same⟩
      · exact unknown (change.ids_subset (sameId ▸ distinct.known inCall))
      · by_cases isUser : other = user
        · subst isUser
          exact effect.not_unregistered inCall notRegister otherInCall unregistered
        · rw [effect.users_of_ne isUser] at otherInCall
          exact isUser (distinct.unique otherInCall inCall (same.trans sameId.symm))

/-- The entry of a registered call is as far as the call and the event loop
have brought it. -/
structure Fits (state : State) (user : Nat) (call : Call) (point : CallPoint)
    (object : AsyncResult Thread) : Prop where
  owned : object.mutex.Owned fun thread =>
    (thread = .user user ∧ point.OwnsObject) ∨ (thread = .loop ∧ state.loop.Storing call.id)
  waiting : ∀ thread ∈ object.condVar,
    thread = .user user ∧ point = .get .blocked ∧ object.done = false
  notified : point = .get .blocked → .user user ∈ object.condVar ∨ object.done = true
  result_stored : object.result = ([], []) ∨
    .stored call.id object.result ∈ state.history
  done_of_stored : ∀ result, .stored call.id result ∈ state.history → point.BeforeTake →
    object.done = true

/-- Each registered call has its entry. -/
def EntriesFit (state : State) : Prop :=
  ∀ user call point, state.users user = .call call point → point.Registered →
      ∃ object, state.object call.id = some object ∧ Fits state user call point object

section Fits

variable {user : Nat} {call : Call} {point : CallPoint} {object moved : AsyncResult Thread}

/-- A fitting entry stays so while the event loop and the stored results do
not change for its id. -/
private theorem Fits.congr (fits : Fits state user call point object)
    (storing : after.loop.Storing call.id ↔ state.loop.Storing call.id)
    (stored : ∀ result, .stored call.id result ∈ after.history ↔
      .stored call.id result ∈ state.history) :
    Fits after user call point object where
  owned := fits.owned.congr fun thread => by rw [storing]
  waiting := fits.waiting
  notified := fits.notified
  result_stored := by
    rw [stored]
    exact fits.result_stored
  done_of_stored := by
    intro result
    rw [stored]
    exact fits.done_of_stored result

/-- Only where the call stands has changed. -/
private theorem Fits.moveTo (fits : Fits state user call point object) {next : CallPoint}
    (owns : ¬ point.OwnsObject) (ownsNext : ¬ next.OwnsObject)
    (notBlocked : point ≠ .get .blocked) (notBlockedNext : next ≠ .get .blocked)
    (before : next.BeforeTake → point.BeforeTake) : Fits state user call next object where
  owned := fits.owned.congr fun thread => by simp only [owns, ownsNext]
  waiting := by
    intro thread member
    exact absurd (fits.waiting thread member).2.1 notBlocked
  notified := fun blocked => absurd blocked notBlockedNext
  result_stored := fits.result_stored
  done_of_stored := fun result stored early => fits.done_of_stored result stored (before early)

private theorem Fits.initial (untouched : Untouched state call.id) :
    Fits state user call .encode {} where
  owned := by
    have notStoring : ¬ state.loop.Storing call.id :=
      fun storing => untouched.loop (LoopPoint.Storing.handles storing)
    intro thread
    simp [CallPoint.OwnsObject, notStoring]
  waiting := by simp
  notified := fun blocked => nomatch blocked
  result_stored := Or.inl rfl
  done_of_stored := by
    intro result stored
    exact absurd rfl (untouched.history _ stored)

/-- A step of `get`. -/
private theorem Fits.get {point next : GetPoint}
    (fits : Fits state user call (.get point) object)
    (advanced : AsyncResult.GetEffect object (.user user) point moved next) :
    Fits state user call (.get next) moved := by
  have notBlocked : point ≠ .blocked → object.condVar = [] := by
    intro different
    rw [List.eq_nil_iff_forall_not_mem]
    intro thread member
    have blocked := (fits.waiting thread member).2.1
    injection blocked with same
    exact different same
  have others : ∀ {inside : Prop} (other : Thread), other ≠ .user user →
      (other = .user user ∧ inside) ∨ (other = .loop ∧ state.loop.Storing call.id) →
        (other = .user user ∧ (CallPoint.get point).OwnsObject) ∨
          (other = .loop ∧ state.loop.Storing call.id) := by
    intro inside other different held
    rcases held with ⟨same, _⟩ | storing
    · exact absurd same different
    · exact Or.inr storing
  have leaves : ∀ {next : GetPoint}, ¬ (CallPoint.get next).OwnsObject →
      ¬ ((Thread.user user = .user user ∧ (CallPoint.get next).OwnsObject) ∨
        (Thread.user user = .loop ∧ state.loop.Storing call.id)) := by
    intro next notOwns held
    rcases held with ⟨_, owns⟩ | ⟨impossible, _⟩
    · exact notOwns owns
    · cases impossible
  cases advanced with
  | lock free =>
      have empty := notBlocked (by simp)
      refine ⟨?_, by simp [empty], by simp, fits.result_stored, fun result stored _ =>
        fits.done_of_stored result stored trivial⟩
      exact fits.owned.acquire free (Or.inl ⟨rfl, trivial⟩) others
  | take done =>
      have empty := notBlocked (by simp)
      refine ⟨?_, by simp [empty], by simp, fits.result_stored, fun _ _ early => False.elim early⟩
      exact fits.owned.release (Or.inl ⟨rfl, trivial⟩) (leaves id) others
  | block pending =>
      have empty := notBlocked (by simp)
      refine ⟨?_, ?_, fun _ => Or.inl List.mem_cons_self, fits.result_stored,
        fun result stored _ => fits.done_of_stored result stored trivial⟩
      · exact fits.owned.release (Or.inl ⟨rfl, trivial⟩) (leaves id) others
      · intro thread member
        rw [empty, List.mem_singleton] at member
        exact ⟨member, rfl, pending⟩
  | relock status free =>
      have empty := notBlocked (by simp)
      refine ⟨?_, by simp [empty], by simp, fits.result_stored, fun result stored _ =>
        fits.done_of_stored result stored trivial⟩
      exact fits.owned.acquire free (Or.inl ⟨rfl, trivial⟩) others
  | throw =>
      have empty := notBlocked (by simp)
      refine ⟨?_, by simp [empty], by simp, fits.result_stored, fun _ _ early => False.elim early⟩
      exact fits.owned.release (Or.inl ⟨rfl, trivial⟩) (leaves id) others
  | resume =>
      have empty := notBlocked (by simp)
      refine ⟨?_, by simp [empty], by simp, fits.result_stored, fun _ _ early => False.elim early⟩
      exact fits.owned.release (Or.inl ⟨rfl, trivial⟩) (leaves id) others

/-- The caller moves the result out. -/
private theorem Fits.move {ret : Str × Str}
    (fits : Fits state user call (.get .returned) object) :
    Fits state user call (.erase ret) { object with result := ([], []) } where
  owned := fits.owned
  waiting := by
    intro thread member
    have blocked := (fits.waiting thread member).2.1
    cases blocked
  notified := fun blocked => nomatch blocked
  result_stored := Or.inl rfl
  done_of_stored := fun _ _ early => False.elim early

private theorem Fits.wake {status : CvStatus}
    (fits : Fits state user call (.get .blocked) object) :
    Fits state user call (.get (.woken status)) (object.wake (.user user)) where
  owned := fits.owned
  waiting := by
    intro thread member
    have parts := CondVar.mem_leave.mp member
    exact absurd (fits.waiting thread parts.1).1 parts.2
  notified := fun blocked => nomatch blocked
  result_stored := fits.result_stored
  done_of_stored := fun result stored _ => fits.done_of_stored result stored trivial

/-- The event loop acquires the mutex of the object. -/
private theorem Fits.lock (fits : Fits state user call point object) (free : object.mutex = none)
    (storing : after.loop.Storing call.id)
    (history : after.history = state.history) :
    Fits after user call point { object with mutex := some .loop } where
  owned := by
    apply fits.owned.acquire free (Or.inr ⟨rfl, storing⟩)
    intro other different held
    rcases held with owns | ⟨same, _⟩
    · exact Or.inl owns
    · exact absurd same different
  waiting := fits.waiting
  notified := fits.notified
  result_stored := by
    rw [history]
    exact fits.result_stored
  done_of_stored := by
    rw [history]
    exact fits.done_of_stored

/-- The event loop stores a result. -/
private theorem Fits.store (fits : Fits state user call point object)
    {result : Str × Str} {notified : Option Thread} {condVar : CondVar Thread}
    (storing : state.loop.Storing call.id) (stops : ¬ after.loop.Storing call.id)
    (chosen : object.condVar.notifyOne notified = some condVar)
    (history : after.history = state.history ++ [.stored call.id result]) :
    Fits after user call point { mutex := none, condVar, done := true, result } where
  owned := by
    apply fits.owned.release (Or.inr ⟨rfl, storing⟩)
    · intro held
      rcases held with ⟨impossible, _⟩ | ⟨_, still⟩
      · cases impossible
      · exact stops still
    · intro other different held
      rcases held with owns | ⟨same, _⟩
      · exact Or.inl owns
      · exact absurd same different
  waiting := by
    have alone : ∀ thread ∈ object.condVar, thread = .user user :=
      fun thread member => (fits.waiting thread member).1
    have empty := CondVar.notifyOne_of_subsingleton alone chosen
    simp [empty]
  notified := fun _ => Or.inr rfl
  result_stored := by
    right
    rw [history]
    simp
  done_of_stored := fun _ _ _ => rfl

end Fits

/-- A step of one call keeps the entries of the others. -/
private theorem EntriesFit.of_own (entries : EntriesFit state) (distinct : DistinctIds state)
    {user : Nat} {call : Call} {point : CallPoint} {activity : Activity}
    (inCall : state.users user = .call call point)
    (users : after.users = Function.update state.users user activity)
    (loop : after.loop = state.loop)
    (stored : ∀ id result, .stored id result ∈ after.history ↔ .stored id result ∈ state.history)
    (objects : ∀ id, id ≠ call.id → after.object id = state.object id)
    (own : ∀ next, activity = .call call next → next.Registered →
      ∃ object, after.object call.id = some object ∧ Fits state user call next object)
    (sameCall : ∀ other next, activity = .call other next → other = call) :
    EntriesFit after := by
  have storing : ∀ id, after.loop.Storing id ↔ state.loop.Storing id := by
    intro id
    rw [loop]
  intro other otherCall otherPoint otherInCall registered
  rw [users] at otherInCall
  rcases eq_call_of_update otherInCall with ⟨rfl, same⟩ | ⟨different, earlier⟩
  · cases sameCall _ _ same
    obtain ⟨object, found, fits⟩ := own _ same registered
    exact ⟨object, found, fits.congr (storing _) (stored _)⟩
  · have otherId : otherCall.id ≠ call.id := fun same =>
      different (distinct.unique earlier inCall same)
    obtain ⟨object, found, fits⟩ := entries _ _ _ earlier registered
    refine ⟨object, ?_, fits.congr (storing _) (stored _)⟩
    rw [objects _ otherId]
    exact found

/-- Steps that leave calls, entries and results alone. -/
private theorem EntriesFit.frame (entries : EntriesFit state)
    (calls : ∀ {user : Nat} {call : Call} {point : CallPoint},
      after.users user = .call call point → point.Registered →
        state.users user = .call call point)
    (objects : ∀ id, after.object id = state.object id)
    (storing : ∀ id, after.loop.Storing id ↔ state.loop.Storing id)
    (stored : ∀ id result, .stored id result ∈ after.history ↔
      .stored id result ∈ state.history) : EntriesFit after := by
  intro user call point inCall registered
  obtain ⟨object, found, fits⟩ := entries _ _ _ (calls inCall registered) registered
  refine ⟨object, ?_, fits.congr (storing _) (stored _)⟩
  rw [objects]
  exact found

private theorem stored_append {events : List Event}
    (none : ∀ id result, .stored id result ∉ events) (id : Str) (result : Str × Str) :
    .stored id result ∈ state.history ++ events ↔ .stored id result ∈ state.history := by
  rw [List.mem_append]
  exact or_iff_left (none id result)

private theorem stored_leaving (other : Str) (point : GetPoint) (id : Str)
    (result : Str × Str) : .stored id result ∉ leaving other point := by
  cases point <;> simp [leaving]

private theorem EntriesFit.callStep (entries : EntriesFit state) (distinct : DistinctIds state)
    (fresh : FreshUntouched state) {user : Nat} {call : Call} {point : CallPoint}
    (inCall : state.users user = .call call point)
    (effect : CallEffect env config state user call point after) : EntriesFit after := by
  have own := entries user call point inCall
  have same : ∀ {here : CallPoint} (other : Call) (next : CallPoint),
      Activity.call call here = .call other next → other = call := by
    intro here other next equal
    cases equal
    rfl
  have stay : ∀ {here : CallPoint}, (here.Registered → ∃ object, state.object call.id = some object ∧
      Fits state user call here object) → ∀ next, Activity.call call here = .call call next →
        next.Registered → ∃ object, state.object call.id = some object ∧
          Fits state user call next object := by
    intro here fits next equal registered
    cases equal
    exact fits registered
  have inserted : ∀ object id, id ≠ call.id →
      (state.setObject call.id object).object id = state.object id :=
    fun object id different => State.object_setObject_of_ne state _ object different
  cases effect with
  | lockRegister free =>
      exact entries.of_own distinct inCall rfl rfl (fun _ _ => Iff.rfl) (fun _ _ => rfl)
        (stay fun registered => False.elim registered) same
  | register =>
      have untouched := fresh call.id (Or.inr ⟨user, call, _, inCall, trivial, rfl⟩)
      refine entries.of_own distinct inCall rfl rfl (fun _ _ => Iff.rfl) (inserted _) ?_ same
      intro next equal registered
      cases equal
      exact ⟨_, State.object_setObject_self .., Fits.initial untouched⟩
  | encode encoded =>
      refine entries.of_own distinct inCall rfl rfl (fun _ _ => Iff.rfl) (fun _ _ => rfl)
        (stay ?_) same
      intro _
      obtain ⟨object, found, fits⟩ := own trivial
      exact ⟨object, found, fits.moveTo id id (by simp) (by simp) fun _ => trivial⟩
  | encodeFault failed =>
      refine entries.of_own distinct inCall rfl rfl ?_ (fun _ _ => rfl) ?_ ?_
      · exact stored_append (by simp)
      · intro next equal
        cases equal
      · intro other next equal
        cases equal
  | lockSend free =>
      refine entries.of_own distinct inCall rfl rfl (fun _ _ => Iff.rfl) (fun _ _ => rfl)
        (stay ?_) same
      intro _
      obtain ⟨object, found, fits⟩ := own trivial
      exact ⟨object, found, fits.moveTo id id (by simp) (by simp) fun _ => trivial⟩
  | send =>
      refine entries.of_own distinct inCall rfl rfl ?_ (fun _ _ => rfl) (stay ?_) same
      · exact stored_append (by simp)
      · intro _
        obtain ⟨object, found, fits⟩ := own trivial
        exact ⟨object, found, fits.moveTo id id (by simp) (by simp) fun _ => trivial⟩
  | lockAwait free =>
      refine entries.of_own distinct inCall rfl rfl (fun _ _ => Iff.rfl) (fun _ _ => rfl)
        (stay ?_) same
      intro _
      obtain ⟨object, found, fits⟩ := own trivial
      exact ⟨object, found, fits.moveTo id id (by simp) (by simp) fun _ => trivial⟩
  | lookup found =>
      refine entries.of_own distinct inCall rfl rfl (fun _ _ => Iff.rfl) (fun _ _ => rfl)
        (stay ?_) same
      intro _
      obtain ⟨object, found, fits⟩ := own trivial
      exact ⟨object, found, fits.moveTo id id (by simp) (by simp) fun _ => trivial⟩
  | lookupNull missing =>
      obtain ⟨object, found, _⟩ := own trivial
      rw [missing] at found
      cases found
  | get found advanced =>
      obtain ⟨object, located, fits⟩ := own trivial
      rw [found] at located
      cases located
      refine entries.of_own distinct inCall rfl rfl ?_ (inserted _) ?_ same
      · exact stored_append (stored_leaving _ _)
      · intro next equal registered
        cases equal
        exact ⟨_, State.object_setObject_self .., fits.get advanced⟩
  | move found =>
      obtain ⟨object, located, fits⟩ := own trivial
      rw [found] at located
      cases located
      refine entries.of_own distinct inCall rfl rfl (fun _ _ => Iff.rfl) (inserted _) ?_ same
      intro next equal registered
      cases equal
      exact ⟨_, State.object_setObject_self .., fits.move⟩
  | getDestroyed notThrew missing =>
      obtain ⟨object, found, _⟩ := own trivial
      rw [missing] at found
      cases found
  | throw =>
      refine entries.of_own distinct inCall rfl rfl ?_ (fun _ _ => rfl) ?_ ?_
      · exact stored_append (by simp)
      · intro next equal
        cases equal
      · intro other next equal
        cases equal
  | erase =>
      refine entries.of_own distinct inCall rfl rfl (fun _ _ => Iff.rfl) ?_
        (fun next equal registered => ?_) same
      · intro other different
        unfold State.object
        rw [OrderedMap.lookup_erase_of_ne _ different]
      · cases equal
        exact False.elim registered
  | finish =>
      refine entries.of_own distinct inCall rfl rfl ?_ (fun _ _ => rfl) ?_ ?_
      · exact stored_append (by simp)
      · intro next equal
        cases equal
      · intro other next equal
        cases equal

/-- A step of the event loop on one object keeps the others. -/
private theorem EntriesFit.of_object (entries : EntriesFit state) {id : Str}
    {object moved : AsyncResult Thread} (found : state.object id = some object)
    (users : after.users = state.users)
    (objects : ∀ other, other ≠ id → after.object other = state.object other)
    (updated : after.object id = some moved)
    (storing : ∀ other, other ≠ id →
      (after.loop.Storing other ↔ state.loop.Storing other))
    (stored : ∀ other result, other ≠ id →
      (.stored other result ∈ after.history ↔ .stored other result ∈ state.history))
    (fits : ∀ {user : Nat} {call : Call} {point : CallPoint}, call.id = id →
      Fits state user call point object → Fits after user call point moved) :
    EntriesFit after := by
  intro user call point inCall registered
  rw [users] at inCall
  obtain ⟨located, foundCall, fitsCall⟩ := entries _ _ _ inCall registered
  by_cases same : call.id = id
  · rw [same, found] at foundCall
    cases foundCall
    exact ⟨moved, by rw [same]; exact updated, fits same fitsCall⟩
  · refine ⟨located, ?_, fitsCall.congr (storing _ same) fun result => stored _ result same⟩
    rw [objects _ same]
    exact foundCall

private theorem EntriesFit.loopStep (entries : EntriesFit state)
    (effect : LoopEffect env state state.loop after) : EntriesFit after := by
  generalize at_point : state.loop = point at effect
  have quiet : ∀ {next : LoopPoint}, (∀ id, ¬ point.Storing id) → (∀ id, ¬ next.Storing id) →
      ∀ id, next.Storing id ↔ state.loop.Storing id := by
    intro next before later id
    rw [at_point]
    exact iff_of_false (later id) (before id)
  have idle : ∀ id : Str, ¬ False := fun _ impossible => impossible
  cases effect with
  | decode decoded =>
      exact entries.frame (fun inCall _ => inCall) (fun _ => rfl) (quiet idle idle)
        (fun _ _ => Iff.rfl)
  | decodeFault failed =>
      exact entries.frame (fun inCall _ => inCall) (fun _ => rfl) (fun _ => Iff.rfl)
        (fun _ _ => Iff.rfl)
  | lookup found =>
      exact entries.frame (fun inCall _ => inCall) (fun _ => rfl) (quiet idle idle)
        (fun _ _ => Iff.rfl)
  | @lookupNull id _ missing =>
      obtain ⟨loop, history⟩ := state.subscript_keeps id
      have users := (state.subscript_frame id).1
      refine entries.frame ?_ (state.object_subscript id) (fun _ => ?_) (fun _ _ => ?_)
      · intro user call point inCall _
        rw [← users]
        exact inCall
      · show (state.subscript id).loop.Storing _ ↔ _
        rw [loop]
      · show _ ∈ (state.subscript id).history ↔ _
        rw [history]
  | @lock id result object found free =>
      refine entries.of_object found rfl ?_ (State.object_setObject_self ..) ?_
        (fun _ _ _ => Iff.rfl) ?_
      · exact fun other different => State.object_setObject_of_ne state id _ different
      · intro other different
        rw [at_point]
        exact iff_of_false (fun same => different same.symm) (idle other)
      · intro user call point same fits
        exact fits.lock free same.symm rfl
  | setDestroyed missing =>
      exact entries.frame (fun inCall _ => inCall) (fun _ => rfl) (fun _ => Iff.rfl)
        (fun _ _ => Iff.rfl)
  | notify =>
      exact entries.frame (fun inCall _ => inCall) (fun _ => rfl) (quiet idle idle)
        (fun _ _ => Iff.rfl)

theorem EntriesFit.next (entries : EntriesFit state) (distinct : DistinctIds state)
    (fresh : FreshUntouched state) (effect : Effect env config state action after) :
    EntriesFit after := by
  have resting : ∀ {user other : Nat} {activity : Activity} {call : Call} {point : CallPoint},
      Function.update state.users user activity other = .call call point → activity.Rests →
        state.users other = .call call point := by
    intro user other activity call point inCall rests
    rcases eq_call_of_update inCall with ⟨_, rfl⟩ | ⟨_, same⟩
    · exact False.elim rests
    · exact same
  cases effect with
  | call begun idle unused =>
      refine entries.frame ?_ (fun _ => rfl) (fun _ => Iff.rfl) (fun _ _ => Iff.rfl)
      intro other call point inCall registered
      rcases eq_call_of_update inCall with ⟨_, same⟩ | ⟨_, same⟩
      · cases same
        exact False.elim registered
      · exact same
  | callRefused =>
      exact entries.frame (fun inCall _ => inCall) (fun _ => rfl) (fun _ => Iff.rfl)
        (stored_append (by simp))
  | publish idle =>
      exact entries.frame (fun inCall _ => resting inCall trivial) (fun _ => rfl)
        (fun _ => Iff.rfl) (fun _ _ => Iff.rfl)
  | publishRefused =>
      exact entries.frame (fun inCall _ => inCall) (fun _ => rfl) (fun _ => Iff.rfl)
        (stored_append (by simp))
  | callStep inCall effect => exact entries.callStep distinct fresh inCall effect
  | publishStep activity effect =>
      have frame := effect.frame
      obtain ⟨next, users, rests⟩ := frame.users
      refine entries.frame ?_ (fun id => ?_) (fun _ => ?_) (fun _ _ => ?_)
      · intro user call point inCall _
        rw [users] at inCall
        exact resting inCall rests
      · unfold State.object
        rw [frame.reqEvents]
      · rw [frame.loop]
      · rw [frame.history]
  | loopStep effect => exact entries.loopStep effect
  | @wake user status call object inCall found =>
      obtain ⟨located, foundCall, fits⟩ := entries _ _ _ inCall trivial
      rw [found] at foundCall
      cases foundCall
      refine entries.of_own distinct inCall rfl rfl (fun _ _ => Iff.rfl) ?_ ?_ ?_
      · exact fun id different => State.object_setObject_of_ne state _ _ different
      · intro next equal _
        cases equal
        exact ⟨_, State.object_setObject_self .., fits.wake⟩
      · intro other next equal
        cases equal
        rfl
  | wakeDestroyed inCall missing =>
      exact entries.frame (fun inCall _ => inCall) (fun _ => rfl) (fun _ => Iff.rfl)
        (fun _ _ => Iff.rfl)
  | wakePublisher activity =>
      exact entries.frame (fun inCall _ => resting inCall trivial) (fun _ => rfl)
        (fun _ => Iff.rfl) (fun _ _ => Iff.rfl)
  | deliver waiting found =>
      refine entries.frame (fun inCall _ => inCall) (fun _ => rfl) (fun _ => ?_)
        (stored_append (by simp))
      rw [waiting]
      exact Iff.rfl
  | deliverUnknown waiting missing =>
      exact entries.frame (fun inCall _ => inCall) (fun _ => rfl) (fun _ => Iff.rfl)
        (stored_append (by simp))
  | @store notified id result object condVar at_point found chosen =>
      refine entries.of_object found rfl ?_ (State.object_setObject_self ..) ?_ ?_ ?_
      · exact fun other different => State.object_setObject_of_ne state id _ different
      · intro other different
        rw [at_point]
        exact iff_of_false (fun impossible => impossible) (fun same => different same.symm)
      · intro other stored different
        show _ ∈ state.history ++ _ ↔ _
        simp [different]
      · intro user call point same fits
        subst same
        have storing : state.loop.Storing call.id := by
          rw [at_point]
          rfl
        exact fits.store storing (fun impossible => impossible) chosen rfl
  | storeDestroyed at_point missing =>
      exact entries.frame (fun inCall _ => inCall) (fun _ => rfl) (fun _ => Iff.rfl)
        (fun _ _ => Iff.rfl)
  | bindSuccess waiting pending =>
      refine entries.frame (fun inCall _ => inCall) (fun _ => rfl) (fun _ => ?_)
        (fun _ _ => Iff.rfl)
      rw [waiting]
      exact Iff.rfl

/-- What holds in every reachable state of the client. -/
structure Consistent (state : State) : Prop where
  distinct : DistinctIds state
  fresh : FreshUntouched state
  owned : TableOwned state
  entries : EntriesFit state

theorem Consistent.next (consistent : Consistent state)
    (effect : Effect env config state action after) : Consistent after where
  distinct := consistent.distinct.next effect.callsChange
  fresh := consistent.fresh.next consistent.distinct effect
  owned := consistent.owned.next effect
  entries := consistent.entries.next consistent.distinct consistent.fresh effect

theorem consistent_init : Consistent {} where
  distinct := by
    constructor
    · intro user call point inCall
      cases inCall
    · intro user other call otherCall point otherPoint inCall
      cases inCall
  fresh := by
    intro id _
    exact ⟨rfl, fun impossible => impossible, by simp⟩
  owned := by
    intro thread
    cases thread <;> simp [State.HoldsTable]
  entries := by
    intro user call point inCall
    cases inCall

theorem consistent_of_reachable (reachable : (machine env config).Reachable state) :
    Consistent state := by
  refine reachable.invariant Consistent consistent_init ?_
  intro _ _ _ _ held stepped
  exact held.next (step_effect stepped).2

end Client

end Ccmqsrv
