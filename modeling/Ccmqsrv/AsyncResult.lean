import Ccmqsrv.Exc
import Ccmqsrv.Foundations.Mailbox
import Ccmqsrv.Foundations.Monitor

/-!
# The result of one call

`AsyncResult` carries an error text and a result text from the thread that
receives a reply to the thread that waits for it.  Its operations are cut
where another thread can come in: before a mutex is acquired, where a wait
releases it, and between the return of `get` and the move out of the reference
it returns.

Used as a mailbox, `get` is right as long as `wait_for` reports a timeout
exactly when no result is there.  Nothing checks `done_` after the wait.
-/

namespace Ccmqsrv

open Foundations

/-- `std::cv_status` -/
inductive CvStatus where
  | noTimeout
  | timeout
  deriving DecidableEq

/-- `AsyncResult` -/
structure AsyncResult (Thread : Type) where
  mutex : Mutex Thread := none
  condVar : CondVar Thread := []
  done : Bool := false
  /-- The error text and the result text. -/
  result : Str × Str := ([], [])

/-- Where a call of `get` stands. -/
inductive GetPoint where
  | enter
  | locked
  | blocked
  | woken (status : CvStatus)
  | resumed (status : CvStatus)
  | returned
  | threw
  deriving DecidableEq

/-- Where a call of `set` stands. -/
inductive SetPoint where
  | enter
  | locked
  deriving DecidableEq

/-- Where a call of `wait` stands. -/
inductive WaitPoint where
  | enter
  | locked
  | blocked
  | woken
  deriving DecidableEq

namespace AsyncResult

variable {Thread : Type}

/-- `get` goes on.  How long `wait_for` blocks and with which status it comes
back is not up to `get`, which does not test `done_` again. -/
def getStep (object : AsyncResult Thread) (thread : Thread) :
    GetPoint → Option (AsyncResult Thread × GetPoint)
  | .enter => do
      let mutex ← object.mutex.lock thread
      return ({ object with mutex }, .locked)
  | .locked =>
      if object.done then
        some ({ object with mutex := none, done := false }, .returned)
      else
        some ({ object with mutex := none, condVar := thread :: object.condVar }, .blocked)
  | .woken status => do
      let mutex ← object.mutex.lock thread
      return ({ object with mutex }, .resumed status)
  | .resumed .timeout => some ({ object with mutex := none }, .threw)
  | .resumed .noTimeout => some ({ object with mutex := none, done := false }, .returned)
  | .blocked => none
  | .returned => none
  | .threw => none

/-- The caller of `get` moves the texts out of the reference it was given. -/
def moveResult (object : AsyncResult Thread) : (Str × Str) × AsyncResult Thread :=
  (object.result, { object with result := ([], []) })

/-- `set` up to the mutex. -/
def setLock (object : AsyncResult Thread) (thread : Thread) : Option (AsyncResult Thread) := do
  let mutex ← object.mutex.lock thread
  return { object with mutex }

/-- `wait` goes on; `none` is its end. -/
def waitStep (object : AsyncResult Thread) (thread : Thread) :
    WaitPoint → Option (AsyncResult Thread × Option WaitPoint)
  | .enter => do
      let mutex ← object.mutex.lock thread
      return ({ object with mutex }, some .locked)
  | .locked =>
      if object.done then
        some ({ object with mutex := none }, none)
      else
        some ({ object with mutex := none, condVar := thread :: object.condVar }, some .blocked)
  | .woken => do
      let mutex ← object.mutex.lock thread
      return ({ object with mutex }, some .locked)
  | .blocked => none

variable [DecidableEq Thread]

/-- The critical section of `set`. -/
def setResult (object : AsyncResult Thread) (result : Str × Str) (notified : Option Thread) :
    Option (AsyncResult Thread) := do
  let condVar ← object.condVar.notifyOne notified
  return { mutex := none, condVar, done := true, result }

/-- A blocked thread wakes up. -/
def wake (object : AsyncResult Thread) (thread : Thread) : AsyncResult Thread :=
  { object with condVar := object.condVar.leave thread }

/-- Everything a step of `get` can do. -/
inductive GetEffect (object : AsyncResult Thread) (thread : Thread) :
    GetPoint → AsyncResult Thread → GetPoint → Prop
  | lock : object.mutex = none →
      GetEffect object thread .enter { object with mutex := some thread } .locked
  | take : object.done = true →
      GetEffect object thread .locked { object with mutex := none, done := false } .returned
  | block : object.done = false →
      GetEffect object thread .locked
        { object with mutex := none, condVar := thread :: object.condVar } .blocked
  | relock (status : CvStatus) : object.mutex = none →
      GetEffect object thread (.woken status) { object with mutex := some thread }
        (.resumed status)
  | throw :
      GetEffect object thread (.resumed .timeout) { object with mutex := none } .threw
  | resume :
      GetEffect object thread (.resumed .noTimeout)
        { object with mutex := none, done := false } .returned

omit [DecidableEq Thread] in
theorem getStep_eq_some {object after : AsyncResult Thread} {thread : Thread}
    {point next : GetPoint} :
    object.getStep thread point = some (after, next) ↔
      GetEffect object thread point after next := by
  constructor
  · intro stepped
    cases point with
    | enter =>
        obtain ⟨mutex, locked, same⟩ := Option.bind_eq_some_iff.mp stepped
        obtain ⟨free, rfl⟩ := Mutex.lock_eq_some.mp locked
        cases same
        exact GetEffect.lock free
    | locked =>
        by_cases done : object.done = true
        · rw [getStep, if_pos done] at stepped
          cases stepped
          exact GetEffect.take done
        · rw [getStep, if_neg done] at stepped
          cases stepped
          exact GetEffect.block (Bool.not_eq_true _ ▸ done)
    | woken status =>
        obtain ⟨mutex, locked, same⟩ := Option.bind_eq_some_iff.mp stepped
        obtain ⟨free, rfl⟩ := Mutex.lock_eq_some.mp locked
        cases same
        exact GetEffect.relock status free
    | resumed status =>
        cases status with
        | timeout =>
            cases stepped
            exact GetEffect.throw
        | noTimeout =>
            cases stepped
            exact GetEffect.resume
    | blocked => cases stepped
    | returned => cases stepped
    | threw => cases stepped
  · intro effect
    cases effect with
    | lock free =>
        exact Option.bind_eq_some_iff.mpr ⟨_, Mutex.lock_eq_some.mpr ⟨free, rfl⟩, rfl⟩
    | take done => rw [getStep, if_pos done]
    | block pending => simp [getStep, pending]
    | relock status free =>
        exact Option.bind_eq_some_iff.mpr ⟨_, Mutex.lock_eq_some.mpr ⟨free, rfl⟩, rfl⟩
    | throw => rfl
    | resume => rfl

/-- What a thread is doing with the object. -/
inductive Operation where
  | idle
  | get (point : GetPoint)
  | set (result : Str × Str) (point : SetPoint)
  | wait (point : WaitPoint)

/-- The operation holds the mutex. -/
def Operation.Owns : Operation → Prop
  | .get .locked => True
  | .get (.resumed _) => True
  | .set _ .locked => True
  | .wait .locked => True
  | _ => False

/-- What happened to results. -/
abbrev Event (Thread : Type) :=
  Mailbox.Event Thread (Str × Str)

/-- One object, the threads that use it, and what has happened to results. -/
structure State (Thread : Type) where
  object : AsyncResult Thread := {}
  threads : Thread → Operation := fun _ => .idle
  history : List (Event Thread) := []

inductive Action (Thread : Type) where
  | get (thread : Thread)
  | set (thread : Thread) (result : Str × Str)
  | wait (thread : Thread)
  | advance (thread : Thread)
  /-- A wait of the thread is over, whether or not it was notified. -/
  | wake (thread : Thread) (status : CvStatus)
  | store (thread : Thread) (notified : Option Thread)
  | move (thread : Thread)

/-- What a step of `get` does to results.  A get that comes back with a timeout
is going to throw. -/
def getEvents (object : AsyncResult Thread) (thread : Thread) : GetPoint → List (Event Thread)
  | .locked => if object.done then [.consumed thread] else []
  | .woken .timeout => [.expired thread]
  | .resumed .noTimeout => [.consumed thread]
  | _ => []

def State.put (state : State Thread) (thread : Thread) (operation : Operation) : State Thread :=
  { state with threads := Function.update state.threads thread operation }

def step (state : State Thread) : Action Thread → Option (State Thread)
  | .get thread =>
      match state.threads thread with
      | .idle => some (state.put thread (.get .enter))
      | _ => none
  | .set thread result =>
      match state.threads thread with
      | .idle => some (state.put thread (.set result .enter))
      | _ => none
  | .wait thread =>
      match state.threads thread with
      | .idle => some (state.put thread (.wait .enter))
      | _ => none
  | .advance thread =>
      match state.threads thread with
      | .get .threw => some (state.put thread .idle)
      | .get point => do
          let (object, next) ← state.object.getStep thread point
          let history := state.history ++ getEvents state.object thread point
          return { state.put thread (.get next) with object, history }
      | .set result .enter => do
          let object ← state.object.setLock thread
          return { state.put thread (.set result .locked) with object }
      | .wait point => do
          let (object, next) ← state.object.waitStep thread point
          return { state.put thread (next.elim .idle .wait) with object }
      | _ => none
  | .wake thread status =>
      match state.threads thread with
      | .get .blocked => some
          { state.put thread (.get (.woken status)) with object := state.object.wake thread }
      | .wait .blocked => some
          { state.put thread (.wait .woken) with object := state.object.wake thread }
      | _ => none
  | .store thread notified =>
      match state.threads thread with
      | .set result .locked => do
          let object ← state.object.setResult result notified
          let history := state.history ++ [.stored result]
          return { state.put thread .idle with object, history }
      | _ => none
  | .move thread =>
      match state.threads thread with
      | .get .returned =>
          let (result, object) := state.object.moveResult
          let history := state.history ++ [.received thread result]
          some { state.put thread .idle with object, history }
      | _ => none

/-- Any number of threads calling `set`, `get` and `wait` on one object. -/
def machine : Machine (State Thread) (Action Thread) where
  init := {}
  step := step

/-- What a step can do to the result, the flag and the mutex. -/
inductive Effect (state : State Thread) : Action Thread → State Thread → Prop
  /-- The thread does not touch the mutex. -/
  | outside {action : Action Thread} {thread : Thread} {operation : Operation}
      {condVar : CondVar Thread} :
      state.threads thread ≠ .get .returned → operation ≠ .get .returned → ¬ operation.Owns →
        Effect state action
          { state.put thread operation with object := { state.object with condVar } }
  | acquired {thread : Thread} {operation : Operation} :
      state.object.mutex = none → state.threads thread ≠ .get .returned →
        (∀ status, operation ≠ .get (.resumed status)) → operation ≠ .get .returned →
          Effect state (.advance thread)
            { state.put thread operation with
              object := { state.object with mutex := some thread } }
  | reacquired {thread : Thread} {status : CvStatus} :
      state.object.mutex = none → state.threads thread = .get (.woken status) →
        Effect state (.advance thread)
          { state.put thread (.get (.resumed status)) with
            object := { state.object with mutex := some thread }
            history := state.history ++ getEvents state.object thread (.woken status) }
  | released {thread : Thread} {operation : Operation} {condVar : CondVar Thread} :
      (state.threads thread).Owns → ¬ operation.Owns → operation ≠ .get .returned →
        Effect state (.advance thread)
          { state.put thread operation with
            object := { state.object with mutex := none, condVar } }
  | consumed {thread : Thread} {point : GetPoint} :
      state.threads thread = .get point →
        (point = .locked ∧ state.object.done = true) ∨ point = .resumed .noTimeout →
          Effect state (.advance thread)
            { state.put thread (.get .returned) with
              object := { state.object with mutex := none, done := false }
              history := state.history ++ [.consumed thread] }
  | stored {thread : Thread} {notified : Option Thread} {result : Str × Str}
      {condVar : CondVar Thread} :
      state.threads thread = .set result .locked →
        Effect state (.store thread notified)
          { state.put thread .idle with
            object := { mutex := none, condVar, done := true, result }
            history := state.history ++ [.stored result] }
  | moved {thread : Thread} :
      state.threads thread = .get .returned →
        Effect state (.move thread)
          { state.put thread .idle with
            object := { state.object with result := ([], []) }
            history := state.history ++ [.received thread state.object.result] }

variable {state after : State Thread} {thread : Thread}

private theorem advance_get {point : GetPoint} (at_point : state.threads thread = .get point)
    {object : AsyncResult Thread} {next : GetPoint}
    (effect : GetEffect state.object thread point object next) :
    Effect state (.advance thread)
      { state.put thread (.get next) with
        object
        history := state.history ++ getEvents state.object thread point } := by
  have owns_of : point = .locked ∨ (∃ status, point = .resumed status) →
      (state.threads thread).Owns := by
    rw [at_point]
    rintro (rfl | ⟨status, rfl⟩) <;> trivial
  have not_returned : point ≠ .returned → state.threads thread ≠ .get .returned := by
    intro different same
    rw [at_point] at same
    cases same
    exact different rfl
  cases effect with
  | lock free =>
      have silent : state.history ++ getEvents state.object thread .enter = state.history :=
        List.append_nil _
      rw [silent]
      exact Effect.acquired free (not_returned (by simp)) (by simp) (by simp)
  | take done =>
      have event : getEvents state.object thread .locked = [.consumed thread] := by
        simp [getEvents, done]
      rw [event]
      exact Effect.consumed at_point (Or.inl ⟨rfl, done⟩)
  | block pending =>
      have silent : getEvents state.object thread .locked = [] := by
        simp [getEvents, pending]
      rw [silent, List.append_nil]
      exact Effect.released (owns_of (Or.inl rfl)) id (by simp)
  | relock status free =>
      exact Effect.reacquired free at_point
  | throw =>
      have silent : state.history ++ getEvents state.object thread (.resumed .timeout) =
          state.history := List.append_nil _
      rw [silent]
      exact Effect.released (owns_of (Or.inr ⟨_, rfl⟩)) id (by simp)
  | resume =>
      exact Effect.consumed at_point (Or.inr rfl)

private theorem advance_wait {point : WaitPoint} (at_point : state.threads thread = .wait point)
    {object : AsyncResult Thread} {next : Option WaitPoint}
    (advanced : state.object.waitStep thread point = some (object, next)) :
    Effect state (.advance thread)
      { state.put thread (next.elim .idle .wait) with object } := by
  have not_returned : state.threads thread ≠ .get .returned := by
    rw [at_point]
    simp
  cases point with
  | enter =>
      obtain ⟨mutex, locked, same⟩ := Option.bind_eq_some_iff.mp advanced
      obtain ⟨free, rfl⟩ := Mutex.lock_eq_some.mp locked
      cases same
      exact Effect.acquired free not_returned (by simp) (by simp)
  | locked =>
      have owns : (state.threads thread).Owns := by
        rw [at_point]
        trivial
      by_cases done : state.object.done = true
      · rw [waitStep, if_pos done] at advanced
        cases advanced
        exact Effect.released owns id (by simp)
      · rw [waitStep, if_neg done] at advanced
        cases advanced
        exact Effect.released owns id (by simp)
  | woken =>
      obtain ⟨mutex, locked, same⟩ := Option.bind_eq_some_iff.mp advanced
      obtain ⟨free, rfl⟩ := Mutex.lock_eq_some.mp locked
      cases same
      exact Effect.acquired free not_returned (by simp) (by simp)
  | blocked => cases advanced

private theorem begin_effect {action : Action Thread} {operation : Operation}
    (idle : state.threads thread = .idle) (not_returned : operation ≠ .get .returned)
    (outside : ¬ operation.Owns) :
    Effect state action (state.put thread operation) := by
  apply Effect.outside _ not_returned outside
  rw [idle]
  simp

private theorem advance_effect (stepped : step state (.advance thread) = some after) :
    Effect state (.advance thread) after := by
  simp only [step] at stepped
  cases operation : state.threads thread with
  | idle => simp [operation] at stepped
  | get point =>
      by_cases threw : point = .threw
      · subst threw
        simp only [operation] at stepped
        cases stepped
        exact Effect.outside (by simp [operation]) (by simp) id
      · have going : (do
            let (object, next) ← state.object.getStep thread point
            let history := state.history ++ getEvents state.object thread point
            return { state.put thread (.get next) with object, history }) = some after := by
          rw [operation] at stepped
          cases point with
          | threw => exact absurd rfl threw
          | _ => exact stepped
        obtain ⟨result, advanced, same⟩ := Option.bind_eq_some_iff.mp going
        obtain ⟨object, next⟩ := result
        cases same
        exact advance_get operation (getStep_eq_some.mp advanced)
  | set result point =>
      cases point with
      | enter =>
          simp only [operation] at stepped
          obtain ⟨object, advanced, same⟩ := Option.bind_eq_some_iff.mp stepped
          obtain ⟨mutex, locked, sameObject⟩ := Option.bind_eq_some_iff.mp advanced
          obtain ⟨free, rfl⟩ := Mutex.lock_eq_some.mp locked
          cases sameObject
          cases same
          exact Effect.acquired free (by simp [operation]) (by simp) (by simp)
      | locked => simp [operation] at stepped
  | wait point =>
      simp only [operation] at stepped
      obtain ⟨result, advanced, same⟩ := Option.bind_eq_some_iff.mp stepped
      obtain ⟨object, next⟩ := result
      cases same
      exact advance_wait operation advanced

theorem step_effect {action : Action Thread}
    (stepped : step state action = some after) : Effect state action after := by
  cases action with
  | get thread =>
      cases operation : state.threads thread with
      | idle =>
          simp only [step, operation] at stepped
          cases stepped
          exact begin_effect operation (by simp) id
      | _ => simp [step, operation] at stepped
  | set thread result =>
      cases operation : state.threads thread with
      | idle =>
          simp only [step, operation] at stepped
          cases stepped
          exact begin_effect operation (by simp) id
      | _ => simp [step, operation] at stepped
  | wait thread =>
      cases operation : state.threads thread with
      | idle =>
          simp only [step, operation] at stepped
          cases stepped
          exact begin_effect operation (by simp) id
      | _ => simp [step, operation] at stepped
  | advance thread => exact advance_effect stepped
  | wake thread status =>
      cases operation : state.threads thread with
      | get point =>
          cases point with
          | blocked =>
              simp only [step, operation] at stepped
              cases stepped
              exact Effect.outside (by simp [operation]) (by simp) id
          | _ => simp [step, operation] at stepped
      | wait point =>
          cases point with
          | blocked =>
              simp only [step, operation] at stepped
              cases stepped
              exact Effect.outside (by simp [operation]) (by simp) id
          | _ => simp [step, operation] at stepped
      | _ => simp [step, operation] at stepped
  | store thread notified =>
      cases operation : state.threads thread with
      | set result point =>
          cases point with
          | locked =>
              simp only [step, operation] at stepped
              obtain ⟨object, stored, same⟩ := Option.bind_eq_some_iff.mp stepped
              obtain ⟨condVar, chosen, sameObject⟩ := Option.bind_eq_some_iff.mp stored
              cases sameObject
              cases same
              exact Effect.stored operation
          | enter => simp [step, operation] at stepped
      | _ => simp [step, operation] at stepped
  | move thread =>
      cases operation : state.threads thread with
      | get point =>
          cases point with
          | returned =>
              simp only [step, operation] at stepped
              cases stepped
              exact Effect.moved operation
          | _ => simp [step, operation] at stepped
      | _ => simp [step, operation] at stepped

end AsyncResult

end Ccmqsrv
