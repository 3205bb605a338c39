import Ccmqsrv.CallProgress
import Ccmqsrv.PublishWakeup
import Ccmqsrv.ReplyReceipt

/-!
# From a delivered reply to the return of its call

A call that is blocked in `get` holds `req_events_mtx`, so no other call holds
the mutex of a result.  The event loop then stores every reply it was given
without waiting, and the notification takes the call through the rest of
`Caller::call`.
-/

namespace Ccmqsrv

open Foundations

namespace Client

/-- Steps of the event loop and of the caller, whose wait ends by its
notification only. -/
def Receives (user : Nat) (state : State) : Action → Prop
  | .advance .loop => True
  | .store _ => True
  | .advance (.user other) => other = user
  | .wake other status => other = user ∧ state.Notified user ∧ status = .noTimeout
  | _ => False

/-- The call is blocked in `get`, and the event loop finds what it needs. -/
structure Waits (env : Env) (config : Config) (user : Nat) (call : Call) (state : State) :
    Prop where
  reachable : (machine env config).Reachable state
  attentive : Attentive env state
  inCall : state.users user = .call call (.get .blocked)

variable {env : Env} {config : Config} {state after : State} {action : Action} {user : Nat}
  {call : Call} {id : Str} {result : Str × Str}

section LoopSteps

/-! What the event loop does next, when nothing is in its way. -/

variable (env config) (alive : state.fault = none)

include alive

private theorem loop_step (stepped : loopStep env state state.loop = some after) :
    (machine env config).step state (.advance .loop) = some after := by
  show step env config state (.advance .loop) = some after
  rw [step, if_neg (by rw [alive]; exact Bool.false_ne_true)]
  exact stepped

theorem loop_decodes {response : Response} (decoding : state.loop = .decode response)
    (decoded : decodeResponse env response.body = .ok result) :
    (machine env config).step state (.advance .loop) = some
      { state with loop := .lookup response.correlationID result } := by
  refine loop_step env config alive ?_
  simp [decoding, loopStep, decoded]

theorem loop_finds {object : AsyncResult Thread} (looking : state.loop = .lookup id result)
    (found : state.object id = some object) :
    (machine env config).step state (.advance .loop) = some
      { state with loop := .set id result .enter } := by
  refine loop_step env config alive ?_
  simp [looking, loopStep, found]

theorem loop_locks {object : AsyncResult Thread} (setting : state.loop = .set id result .enter)
    (found : state.object id = some object) (free : object.mutex = none) :
    (machine env config).step state (.advance .loop) = some
      { state.setObject id { object with mutex := some .loop } with
        loop := .set id result .locked } := by
  refine loop_step env config alive ?_
  simp [setting, loopStep, found, AsyncResult.setLock, Mutex.lock, free]

theorem loop_stores {object : AsyncResult Thread} (setting : state.loop = .set id result .locked)
    (found : state.object id = some object) :
    ∃ notified condVar, (machine env config).step state (.store notified) = some
      { (state.setObject id { mutex := none, condVar, done := true, result }).record
          [.stored id result] with loop := .idle } := by
  obtain ⟨notified, condVar, chosen⟩ := CondVar.exists_notifyOne object.condVar
  refine ⟨notified, condVar, ?_⟩
  simp [machine, step, alive, setting, found, AsyncResult.setResult, chosen]

theorem loop_notifies (notifying : state.loop = .notify) :
    (machine env config).step state (.advance .loop) = some
      { state with pubCv := [], loop := .idle } := by
  refine loop_step env config alive ?_
  simp [notifying, loopStep]

end LoopSteps

section Loop

/-- Steps of the event loop do not end the wait, if it can decode what it gets. -/
theorem Waits.next (waits : Waits env config user call state)
    (stepped : (machine env config).step state action = some after)
    (notUser : action.user = none)
    (decodes : ∀ response, action = .deliver response →
      ∃ result, decodeResponse env response.body = .ok result) :
    Waits env config user call after := by
  have effect := (step_effect stepped).2
  have atRest : RepliesAtRest env state action := by
    refine ⟨decodes, ?_⟩
    intro other otherCall ret acts
    rw [acts] at notUser
    cases notUser
  refine ⟨waits.reachable.next stepped,
    waits.attentive.next (consistent_of_reachable waits.reachable) atRest effect, ?_⟩
  have notOwn : action.user ≠ some user := by
    rw [notUser]
    exact (Option.some_ne_none user).symm
  rw [effect.users_of_ne notOwn]
  exact waits.inCall

private theorem Waits.advance (waits : Waits env config user call state)
    (stepped : (machine env config).step state (.advance .loop) = some after) :
    Waits env config user call after := by
  refine waits.next stepped rfl ?_
  intro response impossible
  cases impossible

/-- An event loop at rest takes every message, and begins to handle a reply to
the call. -/
theorem Waits.takes (waits : Waits env config user call state) (idle : state.loop = .idle)
    (response : Response) :
    ∃ after, (machine env config).step state (.deliver response) = some after ∧
      (response.correlationID = call.id → after.loop = .decode response) := by
  have alive : ¬ state.fault.isSome = true := by
    rw [waits.attentive.alive]
    exact Bool.false_ne_true
  by_cases found : (state.reqEvents.lookup response.correlationID).isSome = true
  · refine ⟨{ state.record [.delivered response true] with loop := .decode response }, ?_,
      fun _ => rfl⟩
    show step env config state (.deliver response) = _
    simp only [step, if_neg alive, idle, if_pos found]
  · refine ⟨state.record [.delivered response false], ?_, fun isOwn => ?_⟩
    · show step env config state (.deliver response) = _
      simp only [step, if_neg alive, idle, if_neg found]
    · have consistent := consistent_of_reachable waits.reachable
      obtain ⟨object, entry, _⟩ := consistent.entries _ _ _ waits.inCall trivial
      rw [isOwn] at found
      exact absurd (isSome_of_object entry) found

/-- The call that waits is the only one in its locked block. -/
private theorem Waits.owner (waits : Waits env config user call state) {other : Nat}
    {otherCall : Call} {point : CallPoint} (inCall : state.users other = .call otherCall point)
    (holds : point.HoldsTable) : other = user := by
  have owned := (consistent_of_reachable waits.reachable).owned
  have byUser : state.reqEventsMtx = some (.user user) := by
    apply (owned (.user user)).mpr
    simp only [State.HoldsTable, waits.inCall]
    trivial
  have byOther : state.reqEventsMtx = some (.user other) := by
    apply (owned (.user other)).mpr
    simp only [State.HoldsTable, inCall]
    exact holds
  rw [byUser] at byOther
  cases byOther
  rfl

/-- Nobody but the event loop holds the mutex of a result. -/
theorem Waits.free (waits : Waits env config user call state)
    (notStoring : ¬ state.loop.Storing id) {object : AsyncResult Thread}
    (found : state.object id = some object) : object.mutex = none := by
  have accounted : Accounted state := by
    refine waits.reachable.invariant Accounted Accounted.init ?_
    intro _ _ _ _ accounted stepped
    exact accounted.next (step_effect stepped).2
  cases owned : object.mutex with
  | none => rfl
  | some owner =>
      have isOwner : state.owner (.result id) = some owner := by
        rw [State.owner_result, found]
        exact owned
      have holds := accounted (.result id) owner isOwner
      cases owner with
      | loop => exact absurd holds notStoring
      | user other =>
          have holds : (state.users other).Holds (.result id) := holds
          cases activity : state.users other with
          | idle =>
              rw [activity] at holds
              exact False.elim holds
          | publish routingKey data point =>
              rw [activity] at holds
              cases point <;> exact False.elim holds
          | call otherCall point =>
              rw [activity] at holds
              have owns : point.OwnsObject := holds.2
              have holdsTable : point.HoldsTable := by
                cases point with
                | get point => trivial
                | _ => exact False.elim owns
              cases waits.owner activity holdsTable
              rw [waits.inCall] at activity
              cases activity
              exact False.elim owns

/-- The event loop comes to rest, and the result is stored. -/
def Stores (env : Env) (config : Config) (user : Nat) (call : Call) (state : State) (id : Str)
    (result : Str × Str) : Prop :=
  ∃ final, (machine env config).Leads (Receives user) state final ∧
    Waits env config user call final ∧ final.loop = .idle ∧
      ∃ object, final.object id = some object ∧ object.done = true ∧ object.result = result

private theorem Stores.of_step (allowed : Receives user state action)
    (stepped : (machine env config).step state action = some after)
    (stores : Stores env config user call after id result) :
    Stores env config user call state id result := by
  obtain ⟨final, leads, rest⟩ := stores
  exact ⟨final, (Machine.Leads.step allowed stepped).trans leads, rest⟩

private theorem Waits.stores_locked (waits : Waits env config user call state)
    (setting : state.loop = .set id result .locked) :
    Stores env config user call state id result := by
  obtain ⟨object, found⟩ := waits.attentive.handled id (by rw [setting]; rfl)
  obtain ⟨notified, condVar, stepped⟩ := loop_stores env config waits.attentive.alive setting found
  refine ⟨_, Machine.Leads.step (by trivial) stepped, ?_, rfl,
    { mutex := none, condVar, done := true, result }, ?_, rfl, rfl⟩
  · refine waits.next stepped rfl ?_
    intro response impossible
    cases impossible
  · exact State.object_setObject_self state id _

private theorem Waits.stores_enter (waits : Waits env config user call state)
    (setting : state.loop = .set id result .enter) :
    Stores env config user call state id result := by
  obtain ⟨object, found⟩ := waits.attentive.handled id (by rw [setting]; rfl)
  have notStoring : ¬ state.loop.Storing id := by
    rw [setting]
    exact fun storing => storing
  have free := waits.free notStoring found
  have stepped := loop_locks env config waits.attentive.alive setting found free
  exact Stores.of_step (by trivial) stepped
    ((waits.advance stepped).stores_locked rfl)

private theorem Waits.stores_lookup (waits : Waits env config user call state)
    (looking : state.loop = .lookup id result) :
    Stores env config user call state id result := by
  obtain ⟨object, found⟩ := waits.attentive.handled id (by rw [looking]; rfl)
  have stepped := loop_finds env config waits.attentive.alive looking found
  exact Stores.of_step (by trivial) stepped ((waits.advance stepped).stores_enter rfl)

/-- What was delivered gets stored. -/
theorem Waits.stores_decode (waits : Waits env config user call state) {response : Response}
    (decoding : state.loop = .decode response)
    (decoded : decodeResponse env response.body = .ok result) :
    Stores env config user call state response.correlationID result := by
  have stepped := loop_decodes env config waits.attentive.alive decoding decoded
  exact Stores.of_step (by trivial) stepped ((waits.advance stepped).stores_lookup rfl)

/-- The event loop comes to rest. -/
theorem Waits.rests (waits : Waits env config user call state) :
    ∃ final, (machine env config).Leads (Receives user) state final ∧
      Waits env config user call final ∧ final.loop = .idle := by
  have of_stores : ∀ {id result}, Stores env config user call state id result →
      ∃ final, (machine env config).Leads (Receives user) state final ∧
        Waits env config user call final ∧ final.loop = .idle := by
    intro id result stores
    obtain ⟨final, leads, waits, idle, _⟩ := stores
    exact ⟨final, leads, waits, idle⟩
  cases atPoint : state.loop with
  | idle => exact ⟨state, .refl, waits, atPoint⟩
  | decode response =>
      obtain ⟨result, decoded⟩ := waits.attentive.decodes response atPoint
      exact of_stores (waits.stores_decode atPoint decoded)
  | lookup id result => exact of_stores (waits.stores_lookup atPoint)
  | set id result point =>
      cases point with
      | enter => exact of_stores (waits.stores_enter atPoint)
      | locked => exact of_stores (waits.stores_locked atPoint)
  | notify =>
      have stepped := loop_notifies env config waits.attentive.alive atPoint
      exact ⟨_, Machine.Leads.step (by trivial) stepped, waits.advance stepped, rfl⟩

end Loop

section Return

/-- The call can end with what it makes of this result. -/
def CanReturn (env : Env) (config : Config) (user : Nat) (call : Call) (state : State)
    (result : Str × Str) : Prop :=
  ∃ final, (machine env config).Leads (Receives user) state final ∧ final.users user = .idle ∧
    .ended call (finishCall env result) ∈ final.history

private theorem CanReturn.of_step (allowed : Receives user state action)
    (stepped : (machine env config).step state action = some after)
    (returns : CanReturn env config user call after result) :
    CanReturn env config user call state result := by
  obtain ⟨final, leads, rest⟩ := returns
  exact ⟨final, (Machine.Leads.step allowed stepped).trans leads, rest⟩

variable {object : AsyncResult Thread} {point : CallPoint} (alive : state.fault = none)

include alive

private theorem CanReturn.of_effect (inCall : state.users user = .call call point)
    (effect : CallEffect env config state user call point after)
    (returns : CanReturn env config user call after result) :
    CanReturn env config user call state result := by
  have allowed : Receives user state (.advance (.user user)) := rfl
  exact CanReturn.of_step allowed (advance_of_effect alive inCall effect) returns

private theorem returns_of_finish (inCall : state.users user = .call call (.finish result)) :
    CanReturn env config user call state result := by
  have stepped := advance_of_effect alive inCall
    (CallEffect.finish : CallEffect env config state user call (.finish result) _)
  have allowed : Receives user state (.advance (.user user)) := rfl
  refine ⟨_, Machine.Leads.step allowed stepped, Function.update_self .., ?_⟩
  exact List.mem_append_right _ (List.mem_singleton_self _)

private theorem returns_of_erase (inCall : state.users user = .call call (.erase result)) :
    CanReturn env config user call state result := by
  refine CanReturn.of_effect alive inCall CallEffect.erase (returns_of_finish ?_ ?_)
  · exact alive
  · exact Function.update_self ..

private theorem returns_of_returned (inCall : state.users user = .call call (.get .returned))
    (found : state.object call.id = some object) (stored : object.result = result) :
    CanReturn env config user call state result := by
  subst stored
  refine CanReturn.of_effect alive inCall (CallEffect.move found) (returns_of_erase ?_ ?_)
  · exact alive
  · exact Function.update_self ..

private theorem returns_of_resumed
    (inCall : state.users user = .call call (.get (.resumed .noTimeout)))
    (found : state.object call.id = some object) (stored : object.result = result) :
    CanReturn env config user call state result := by
  refine CanReturn.of_effect alive inCall (CallEffect.get found .resume) ?_
  refine returns_of_returned ?_ ?_ (State.object_setObject_self state call.id _) stored
  · exact alive
  · exact Function.update_self ..

private theorem returns_of_woken
    (inCall : state.users user = .call call (.get (.woken .noTimeout)))
    (found : state.object call.id = some object) (free : object.mutex = none)
    (stored : object.result = result) : CanReturn env config user call state result := by
  refine CanReturn.of_effect alive inCall (CallEffect.get found (.relock .noTimeout free)) ?_
  refine returns_of_resumed ?_ ?_ (State.object_setObject_self state call.id _) stored
  · exact alive
  · exact Function.update_self ..

omit alive in
/-- A call whose reply is stored wakes up and returns. -/
theorem Waits.returns (waits : Waits env config user call state) (idle : state.loop = .idle)
    (found : state.object call.id = some object) (done : object.done = true) :
    CanReturn env config user call state object.result := by
  have consistent := consistent_of_reachable waits.reachable
  obtain ⟨_, same, fits⟩ := consistent.entries _ _ _ waits.inCall trivial
  cases found.symm.trans same
  have notified : state.Notified user := by
    refine ⟨call, object, waits.inCall, found, fun blocked => ?_⟩
    have pending := (fits.waiting _ blocked).2.2
    rw [done] at pending
    cases pending
  have notStoring : ¬ state.loop.Storing call.id := by
    rw [idle]
    exact fun storing => storing
  have free := waits.free notStoring found
  have stepped : (machine env config).step state (.wake user .noTimeout) =
      some ((state.setObject call.id (object.wake (.user user))).put user
        (.call call (.get (.woken .noTimeout)))) := by
    simp [machine, step, waits.attentive.alive, waits.inCall, found]
  have allowed : Receives user state (.wake user .noTimeout) := ⟨rfl, notified, rfl⟩
  refine CanReturn.of_step allowed stepped ?_
  refine returns_of_woken ?_ ?_ (State.object_setObject_self state call.id _) free rfl
  · exact waits.attentive.alive
  · exact Function.update_self ..

end Return

end Client

end Ccmqsrv
