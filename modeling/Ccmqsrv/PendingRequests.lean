import Ccmqsrv.CallHistory
import Ccmqsrv.Foundations.JsonCodec

/-!
# The table of pending requests

A call is in progress for the table from the moment it is registered until it
erases its entry or ends.  The table then holds the calls in progress and
nothing else, in every run in which the arguments of each call can be encoded,
no call times out, and no call erases its entry while the event loop is
between looking it up and storing a reply in it.  Otherwise an entry is left
behind for good.
-/

namespace Ccmqsrv

open Foundations

namespace Client

/-- A call with this id is registered and has not erased its entry. -/
def InProgress (state : State) (id : Str) : Prop :=
  ∃ user call point, state.users user = .call call point ∧ point.Registered ∧ call.id = id

/-- The table holds the calls in progress, and no call that has ended. -/
structure NoLeak (state : State) : Prop where
  keys_iff : ∀ id, id ∈ state.reqEvents.keys ↔ InProgress state id
  ended_absent : ∀ call outcome, .ended call outcome ∈ state.history →
    call.id ∉ state.reqEvents.keys

/-- No call erases its entry while the event loop is handling a reply to it. -/
def ErasedAtRest (state : State) (action : Action) : Prop :=
  ∀ user call ret, action = .advance (.user user) →
    state.users user = .call call (.erase ret) → ¬ state.loop.Handles call.id

/-- The arguments are encoded, no wait for a reply times out, and entries are
erased at rest. -/
structure Undisturbed (env : Env) (state : State) (action : Action) : Prop where
  encodes : ∀ user call, action = .advance (.user user) →
    state.users user = .call call .encode →
      ∃ body, rpcEncodeReq env call.id call.meth call.args = .ok body
  inTime : ∀ user call, action = .advance (.user user) →
    state.users user ≠ .call call (.get (.resumed .timeout))
  erasedAtRest : ErasedAtRest state action

/-- What holds while nothing is left behind. -/
structure Tidy (state : State) : Prop where
  present : ∀ id, (state.reqEvents.lookup id).isSome = true → InProgress state id
  handled : ∀ id, state.loop.Handles id → (state.reqEvents.lookup id).isSome = true
  inTime : ∀ user call, state.users user ≠ .call call (.get .threw)

/-- `LoopPoint.Handles`, computed. -/
def LoopPoint.handles (id : Str) : LoopPoint → Bool
  | .decode response => response.correlationID = id
  | .lookup other _ => other = id
  | .set other _ _ => other = id
  | _ => false

theorem LoopPoint.handles_iff {id : Str} {point : LoopPoint} :
    point.handles id = true ↔ point.Handles id := by
  cases point <;> simp [LoopPoint.handles, LoopPoint.Handles]

variable {env : Env} {config : Config} {state after : State} {action : Action}
  {user : Nat} {call : Call} {point : CallPoint} {id : Str}

theorem isSome_of_object {object : AsyncResult Thread} (found : state.object id = some object) :
    (state.reqEvents.lookup id).isSome = true := by
  unfold State.object at found
  cases looked : state.reqEvents.lookup id with
  | none =>
      rw [looked] at found
      cases found
  | some entry => rfl

private theorem isSome_setObject (object : AsyncResult Thread)
    (present : (state.reqEvents.lookup id).isSome = true) (other : Str) :
    ((state.setObject id object).reqEvents.lookup other).isSome =
      (state.reqEvents.lookup other).isSome := by
  by_cases same : other = id
  · subst same
    unfold State.setObject
    rw [OrderedMap.lookup_insert_self, present]
    rfl
  · unfold State.setObject
    rw [OrderedMap.lookup_insert_of_ne _ _ same]

/-- A call stays in progress over a step of a thread that keeps it so. -/
private theorem InProgress.update (inProgress : InProgress state id) {activity : Activity}
    (users : after.users = Function.update state.users user activity)
    (own : ∀ call point, state.users user = .call call point → point.Registered →
      ∃ next, activity = .call call next ∧ next.Registered) : InProgress after id := by
  obtain ⟨other, otherCall, otherPoint, inCall, registered, same⟩ := inProgress
  by_cases isUser : other = user
  · subst isUser
    obtain ⟨next, continued, stays⟩ := own _ _ inCall registered
    refine ⟨other, otherCall, next, ?_, stays, same⟩
    rw [users, Function.update_self, continued]
  · refine ⟨other, otherCall, otherPoint, ?_, registered, same⟩
    rw [users, Function.update_of_ne isUser]
    exact inCall

/-- A step of one thread keeps the table tidy when the entries stay, the call
of the thread stays in progress, and it does not throw. -/
private theorem Tidy.step (tidy : Tidy state) {activity : Activity}
    (users : after.users = Function.update state.users user activity)
    (entries : ∀ other, (after.reqEvents.lookup other).isSome =
      (state.reqEvents.lookup other).isSome)
    (loop : after.loop = state.loop)
    (own : ∀ call point, state.users user = .call call point → point.Registered →
      ∃ next, activity = .call call next ∧ next.Registered)
    (notThrew : ∀ call, activity ≠ .call call (.get .threw)) : Tidy after where
  present := by
    intro other found
    rw [entries] at found
    exact (tidy.present other found).update users own
  handled := by
    intro other handles
    rw [loop] at handles
    rw [entries]
    exact tidy.handled other handles
  inTime := by
    intro other otherCall threw
    rw [users] at threw
    rcases eq_call_of_update threw with ⟨_, same⟩ | ⟨_, same⟩
    · exact notThrew otherCall same
    · exact tidy.inTime other otherCall same

/-- A call that moves from one registered place to another. -/
private theorem Tidy.move (tidy : Tidy state) {next : CallPoint}
    (inCall : state.users user = .call call point)
    (users : after.users = Function.update state.users user (.call call next))
    (entries : ∀ other, (after.reqEvents.lookup other).isSome =
      (state.reqEvents.lookup other).isSome)
    (loop : after.loop = state.loop) (registered : next.Registered)
    (notThrew : next ≠ .get .threw) : Tidy after := by
  apply tidy.step users entries loop
  · intro other earlier same _
    rw [inCall] at same
    cases same
    exact ⟨next, rfl, registered⟩
  · intro other same
    cases same
    exact notThrew rfl

/-- A thread whose call has no entry, before and after. -/
private theorem Tidy.aside (tidy : Tidy state) {activity : Activity}
    (before : ∀ call point, state.users user = .call call point → ¬ point.Registered)
    (users : after.users = Function.update state.users user activity)
    (entries : after.reqEvents = state.reqEvents) (loop : after.loop = state.loop)
    (notThrew : ∀ call, activity ≠ .call call (.get .threw)) : Tidy after := by
  apply tidy.step users _ loop _ notThrew
  · intro other
    rw [entries]
  · intro other earlier inCall registered
    exact absurd registered (before other earlier inCall)

private theorem Tidy.callStep (tidy : Tidy state) (consistent : Consistent state)
    (undisturbed : Undisturbed env state (.advance (.user user)))
    (inCall : state.users user = .call call point)
    (effect : CallEffect env config state user call point after) : Tidy after := by
  have located := consistent.entries _ _ _ inCall
  have only : ∀ {here : CallPoint}, point = here → ¬ here.Registered →
      ∀ call point, state.users user = .call call point → ¬ point.Registered := by
    intro here same notRegistered other earlier otherInCall
    rw [inCall] at otherInCall
    cases otherInCall
    rw [same]
    exact notRegistered
  cases effect with
  | lockRegister free => exact tidy.aside (only rfl id) rfl rfl rfl (by simp)
  | register =>
      constructor
      · intro other found
        by_cases same : other = call.id
        · subst same
          exact ⟨user, call, .encode, Function.update_self .., trivial, rfl⟩
        · have earlier : (state.reqEvents.lookup other).isSome = true := by
            rw [← OrderedMap.lookup_insert_of_ne state.reqEvents (some {}) same]
            exact found
          apply (tidy.present other earlier).update rfl
          intro otherCall otherPoint otherInCall registered
          exact absurd registered (only rfl id otherCall otherPoint otherInCall)
      · intro other handles
        have earlier := tidy.handled other handles
        by_cases same : other = call.id
        · subst same
          show ((state.reqEvents.insert call.id (some {})).lookup call.id).isSome = true
          rw [OrderedMap.lookup_insert_self]
          rfl
        · show ((state.reqEvents.insert call.id (some {})).lookup other).isSome = true
          rw [OrderedMap.lookup_insert_of_ne _ _ same]
          exact earlier
      · intro other otherCall threw
        rcases eq_call_of_update threw with ⟨_, same⟩ | ⟨_, same⟩
        · cases same
        · exact tidy.inTime other otherCall same
  | encode encoded => exact tidy.move inCall rfl (fun _ => rfl) rfl trivial (by simp)
  | encodeFault failed =>
      obtain ⟨body, encoded⟩ := undisturbed.encodes user call rfl inCall
      rw [failed] at encoded
      cases encoded
  | lockSend free => exact tidy.move inCall rfl (fun _ => rfl) rfl trivial (by simp)
  | send => exact tidy.move inCall rfl (fun _ => rfl) rfl trivial (by simp)
  | lockAwait free => exact tidy.move inCall rfl (fun _ => rfl) rfl trivial (by simp)
  | lookup found => exact tidy.move inCall rfl (fun _ => rfl) rfl trivial (by simp)
  | lookupNull missing =>
      obtain ⟨object, found, _⟩ := located trivial
      rw [missing] at found
      cases found
  | get found advanced =>
      refine tidy.move inCall rfl (isSome_setObject _ (isSome_of_object found)) rfl trivial ?_
      rintro ⟨⟩
      cases advanced with
      | throw => exact undisturbed.inTime user call rfl inCall
  | move found =>
      exact tidy.move inCall rfl (isSome_setObject _ (isSome_of_object found)) rfl trivial
        (by simp)
  | getDestroyed notThrew missing =>
      obtain ⟨object, found, _⟩ := located trivial
      rw [missing] at found
      cases found
  | throw => exact absurd inCall (tidy.inTime user call)
  | @erase ret =>
      have atRest := undisturbed.erasedAtRest user call ret rfl inCall
      constructor
      · intro other found
        by_cases same : other = call.id
        · subst same
          change ((state.reqEvents.erase call.id).lookup call.id).isSome = true at found
          rw [OrderedMap.lookup_erase_self] at found
          cases found
        · change ((state.reqEvents.erase call.id).lookup other).isSome = true at found
          rw [OrderedMap.lookup_erase_of_ne _ same] at found
          obtain ⟨holder, otherCall, otherPoint, otherInCall, registered, rfl⟩ :=
            tidy.present other found
          have different : holder ≠ user := by
            rintro rfl
            rw [inCall] at otherInCall
            cases otherInCall
            exact same rfl
          exact ⟨holder, otherCall, otherPoint,
            (Function.update_of_ne different ..).trans otherInCall, registered, rfl⟩
      · intro other handles
        have different : other ≠ call.id := by
          rintro rfl
          exact atRest handles
        show ((state.reqEvents.erase call.id).lookup other).isSome = true
        rw [OrderedMap.lookup_erase_of_ne _ different]
        exact tidy.handled other handles
      · intro other otherCall threw
        rcases eq_call_of_update threw with ⟨_, same⟩ | ⟨_, same⟩
        · cases same
        · exact tidy.inTime other otherCall same
  | finish => exact tidy.aside (only rfl id) rfl rfl rfl (by simp)

private theorem Tidy.still (tidy : Tidy state) (users : after.users = state.users)
    (entries : ∀ other, (after.reqEvents.lookup other).isSome =
      (state.reqEvents.lookup other).isSome)
    (handled : ∀ id, after.loop.Handles id → (state.reqEvents.lookup id).isSome = true) :
    Tidy after where
  present := by
    intro other found
    rw [entries] at found
    have inProgress := tidy.present other found
    unfold InProgress at inProgress ⊢
    rw [users]
    exact inProgress
  handled := by
    intro other handles
    rw [entries]
    exact handled other handles
  inTime := by
    rw [users]
    exact tidy.inTime

/-- A handled id belongs to a call in progress, so its object is there. -/
private theorem Tidy.object (tidy : Tidy state) (consistent : Consistent state)
    (handles : state.loop.Handles id) : ∃ object, state.object id = some object := by
  obtain ⟨user, call, point, inCall, registered, rfl⟩ := tidy.present id (tidy.handled id handles)
  obtain ⟨object, found, _⟩ := consistent.entries _ _ _ inCall registered
  exact ⟨object, found⟩

private theorem Tidy.loopStep (tidy : Tidy state) (consistent : Consistent state)
    (effect : LoopEffect env state state.loop after) : Tidy after := by
  have handled := tidy.handled
  have located : ∀ id, state.loop.Handles id → ∃ object, state.object id = some object :=
    fun id handles => tidy.object consistent handles
  generalize state.loop = point at effect handled located
  cases effect with
  | decode decoded => exact tidy.still rfl (fun _ => rfl) handled
  | decodeFault failed => exact tidy.still rfl (fun _ => rfl) tidy.handled
  | lookup found => exact tidy.still rfl (fun _ => rfl) handled
  | lookupNull missing =>
      obtain ⟨object, found⟩ := located _ rfl
      rw [missing] at found
      cases found
  | lock found free =>
      exact tidy.still rfl (isSome_setObject _ (isSome_of_object found)) handled
  | setDestroyed missing => exact tidy.still rfl (fun _ => rfl) tidy.handled
  | notify => exact tidy.still rfl (fun _ => rfl) (fun _ impossible => False.elim impossible)

theorem Tidy.next (tidy : Tidy state) (consistent : Consistent state)
    (undisturbed : Undisturbed env state action)
    (effect : Effect env config state action after) : Tidy after := by
  cases effect with
  | call begun idle fresh =>
      refine tidy.aside ?_ rfl rfl rfl (by simp)
      intro other point inCall
      rw [idle] at inCall
      cases inCall
  | callRefused => exact tidy.still rfl (fun _ => rfl) tidy.handled
  | publish idle =>
      refine tidy.aside ?_ rfl rfl rfl (by simp)
      intro other point inCall
      rw [idle] at inCall
      cases inCall
  | publishRefused => exact tidy.still rfl (fun _ => rfl) tidy.handled
  | callStep inCall effect => exact tidy.callStep consistent undisturbed inCall effect
  | publishStep activity effect =>
      have frame := effect.frame
      obtain ⟨next, users, rests⟩ := frame.users
      refine tidy.aside ?_ users frame.reqEvents frame.loop ?_
      · intro other point inCall
        rw [activity] at inCall
        cases inCall
      · rintro other rfl
        exact rests
  | loopStep effect => exact tidy.loopStep consistent effect
  | wake inCall found =>
      exact tidy.move inCall rfl (isSome_setObject _ (isSome_of_object found)) rfl trivial
        (by simp)
  | wakeDestroyed inCall missing => exact tidy.still rfl (fun _ => rfl) tidy.handled
  | wakePublisher activity =>
      refine tidy.aside ?_ rfl rfl rfl (by simp)
      intro other point inCall
      rw [activity] at inCall
      cases inCall
  | deliver waiting found =>
      refine tidy.still rfl (fun _ => rfl) ?_
      rintro other rfl
      exact found
  | deliverUnknown waiting missing => exact tidy.still rfl (fun _ => rfl) tidy.handled
  | store at_point found chosen =>
      exact tidy.still rfl (isSome_setObject _ (isSome_of_object found))
        (fun _ impossible => False.elim impossible)
  | storeDestroyed at_point missing => exact tidy.still rfl (fun _ => rfl) tidy.handled
  | bindSuccess waiting pending =>
      exact tidy.still rfl (fun _ => rfl) (fun _ impossible => False.elim impossible)

/-- No thread is inside a call that has ended. -/
def EndedGone (state : State) : Prop :=
  ∀ call outcome, .ended call outcome ∈ state.history →
    ∀ user other point, state.users user = .call other point → other.id ≠ call.id

theorem EndedGone.next (gone : EndedGone state) (consistent : Consistent state)
    (effect : Effect env config state action after) : EndedGone after := by
  intro call outcome ended user other point inCall same
  have before := effect.callsChange.before inCall
  rcases effect.callsMove.ended_before ended with old | ⟨ending, endPoint, endCall, _, users⟩
  · have known : call.id ∈ state.ids := by
      by_contra unknown
      exact (consistent.fresh _ (Or.inl unknown)).history _ old rfl
    rcases before with ⟨new, _, _⟩ | ⟨earlier, earlierCall⟩
    · exact new (same ▸ known)
    · exact gone call outcome old user other earlier earlierCall same
  · rcases before with ⟨new, _, _⟩ | ⟨earlier, earlierCall⟩
    · exact new (same ▸ consistent.distinct.known endCall)
    · have isEnding := consistent.distinct.unique earlierCall endCall same
      rw [isEnding, users, Function.update_self] at inCall
      cases inCall

/-- In an undisturbed run no entry is left behind. -/
theorem noLeak_of_undisturbed {trace : List Action}
    (run : (machine env config).Run (Undisturbed env) trace state) : NoLeak state := by
  have tidy : Tidy state ∧ EndedGone state := by
    refine run.invariant (fun _ state => Tidy state ∧ EndedGone state) ?_ ?_
    · refine ⟨⟨?_, fun _ impossible => False.elim impossible, by simp [machine]⟩, ?_⟩
      · intro id found
        cases found
      · intro call outcome member
        simp [machine] at member
    · intro _ _ _ _ earlier held undisturbed stepped
      have consistent := consistent_of_reachable earlier.reachable
      have effect := (step_effect stepped).2
      exact ⟨held.1.next consistent undisturbed effect, held.2.next consistent effect⟩
  have consistent := consistent_of_reachable run.reachable
  have keys_iff : ∀ id, id ∈ state.reqEvents.keys ↔ InProgress state id := by
    intro id
    rw [OrderedMap.mem_keys_iff]
    constructor
    · exact tidy.1.present id
    · rintro ⟨user, call, point, inCall, registered, rfl⟩
      obtain ⟨object, found, _⟩ := consistent.entries _ _ _ inCall registered
      exact isSome_of_object found
  refine ⟨keys_iff, fun call outcome ended present => ?_⟩
  obtain ⟨user, other, point, inCall, _, same⟩ := (keys_iff call.id).mp present
  exact tidy.2 call outcome ended user other point inCall same

/-- `Undisturbed`, computed. -/
def undisturbed (env : Env) (state : State) : Action → Bool
  | .advance (.user user) =>
      match state.users user with
      | .call call .encode => (rpcEncodeReq env call.id call.meth call.args).isOk
      | .call _ (.get (.resumed .timeout)) => false
      | .call call (.erase _) => !state.loop.handles call.id
      | _ => true
  | _ => true

theorem undisturbed_sound (state : State) (action : Action)
    (passed : undisturbed env state action = true) : Undisturbed env state action := by
  constructor
  · rintro user call rfl inCall
    simp only [undisturbed, inCall] at passed
    cases encoded : rpcEncodeReq env call.id call.meth call.args with
    | ok body => exact ⟨body, rfl⟩
    | error fault =>
        rw [encoded] at passed
        cases passed
  · rintro user call rfl inCall
    simp [undisturbed, inCall] at passed
  · rintro user call ret rfl inCall handles
    simp only [undisturbed, inCall, Bool.not_eq_true'] at passed
    rw [LoopPoint.handles_iff.mpr handles] at passed
    cases passed

def exampleConfig : Config where
  rpcExchange := ascii "rpc"
  callbackQueue := ascii "cbq-1"
  eventExchange := ascii "event"

/-- A call that has sent its request and is about to wait. -/
def sentCall : List Action :=
  .call 0 (ascii "q") (ascii "f") [] (ascii "1") :: List.replicate 9 (.advance (.user 0))

/-- A call that gets its reply. -/
def answeredCall : List Action :=
  sentCall ++
    [.deliver ⟨ascii "corr-1", ascii "[1,\"corr-1\",\"\",3]"⟩, .advance .loop, .advance .loop,
      .advance .loop, .store (some (.user 0)), .wake 0 .noTimeout] ++
    List.replicate 5 (.advance (.user 0))

theorem noLeak_answeredCall :
    ∃ state, (machine ⟨codec, false⟩ exampleConfig).Run (Undisturbed ⟨codec, false⟩)
      answeredCall state ∧ NoLeak state ∧ state.reqEvents.keys = [] := by
  have passed : (((machine ⟨codec, false⟩ exampleConfig).execWhile (undisturbed ⟨codec, false⟩)
      answeredCall (machine ⟨codec, false⟩ exampleConfig).init).any fun state =>
        state.reqEvents.keys = []) = true := by
    decide +kernel
  obtain ⟨state, run, empty⟩ := Machine.Run.of_execWhile_any undisturbed_sound passed
  exact ⟨state, run, noLeak_of_undisturbed run, of_decide_eq_true empty⟩

/-- The call of the event has ended and its entry is still there. -/
def Event.leaves (state : State) : Event → Bool
  | .ended call _ => (state.reqEvents.lookup call.id).isSome
  | _ => false

/-- A call that times out leaves its entry behind. -/
theorem not_noLeak_timeout :
    ¬ ∀ (trace : List Action) (state : State),
      (machine ⟨codec, false⟩ exampleConfig).Run Machine.always trace state → NoLeak state := by
  intro noLeak
  have reached : (((machine ⟨codec, false⟩ exampleConfig).exec
      (sentCall ++ .wake 0 .timeout :: List.replicate 3 (.advance (.user 0)))
      (machine ⟨codec, false⟩ exampleConfig).init).any fun state =>
        state.history.any (Event.leaves state)) = true := by
    decide +kernel
  obtain ⟨state, run, left⟩ := Machine.Run.of_exec_any (fun _ _ _ => trivial) reached
  obtain ⟨event, member, leaves⟩ := List.any_eq_true.mp left
  cases event with
  | ended call outcome =>
      exact (noLeak _ state run).ended_absent call outcome member (OrderedMap.mem_keys_iff.mpr leaves)
  | _ => cases leaves

end Client

end Ccmqsrv
