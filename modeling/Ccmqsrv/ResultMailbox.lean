import Ccmqsrv.AsyncResult

/-!
# An asynchronous result as a mailbox

Every reader of an `AsyncResult` receives a pair that was stored and that no
other reader consumed, and times out only when nothing is stored, in every run
in which a get comes back from `wait_for` with `timeout` exactly when `done_`
is false, and no `set` runs between the return of a `get` and the move of its
caller.  Both conditions can fail: by a spurious wake-up, by a result that
arrives as the timeout expires, or by a second `set` in quick succession.
-/

namespace Ccmqsrv

open Foundations

namespace AsyncResult

variable {Thread : Type} [DecidableEq Thread]

/-- The status a get comes back with says whether a result is there, and
nothing is stored under a reference that has not been moved out of. -/
def Undisturbed (state : State Thread) : Action Thread → Prop
  | .advance thread => ∀ status, state.threads thread = .get (.woken status) →
      (state.object.done = true ↔ status = .noTimeout)
  | .store _ _ => ∀ reader, state.threads reader ≠ .get .returned
  | _ => True

/-- The state of the object and its readers is the state of a mailbox. -/
structure Mirrors (state : State Thread) (box : Mailbox.Box Thread (Str × Str)) : Prop where
  content_iff : ∀ pair, box.content = some pair ↔
    state.object.done = true ∧ state.object.result = pair
  handed_iff : ∀ reader pair, box.handed reader = some pair ↔
    state.threads reader = .get .returned ∧ state.object.result = pair
  taken : ∀ reader, state.threads reader = .get .returned → state.object.done = false
  alone : ∀ reader other, state.threads reader = .get .returned →
    state.threads other = .get .returned → reader = other
  owner : ∀ thread, (state.threads thread).Owns → state.object.mutex = some thread
  agrees : ∀ thread status, state.threads thread = .get (.resumed status) →
    (state.object.done = true ↔ status = .noTimeout)

variable {state : State Thread} {box : Mailbox.Box Thread (Str × Str)}
  {thread : Thread} {operation : Operation}

omit [DecidableEq Thread] in
theorem Mirrors.content_eq_none (mirrors : Mirrors state box)
    (pending : state.object.done = false) : box.content = none := by
  rw [Option.eq_none_iff_forall_not_mem]
  intro pair full
  have stored := (mirrors.content_iff pair).mp full
  rw [pending] at stored
  exact Bool.noConfusion stored.1

omit [DecidableEq Thread] in
/-- Nobody owns a mutex that is free. -/
theorem Mirrors.not_owns (mirrors : Mirrors state box) (free : state.object.mutex = none)
    (thread : Thread) : ¬ (state.threads thread).Owns := by
  intro owns
  have owner := mirrors.owner thread owns
  rw [free] at owner
  cases owner

omit [DecidableEq Thread] in
/-- Two threads do not own the mutex at once. -/
theorem Mirrors.owns_unique (mirrors : Mirrors state box) {other : Thread}
    (owns : (state.threads thread).Owns) (otherOwns : (state.threads other).Owns) :
    other = thread := by
  have owner := mirrors.owner thread owns
  rw [mirrors.owner other otherOwns] at owner
  exact Option.some.inj owner

/-- A thread that owns nothing more than before and hands nothing out leaves
the mailbox as it is. -/
private theorem Mirrors.quiet (mirrors : Mirrors state box) {object : AsyncResult Thread}
    {history : List (Event Thread)}
    (sameDone : object.done = state.object.done)
    (sameResult : object.result = state.object.result)
    (before : state.threads thread ≠ .get .returned)
    (after : operation ≠ .get .returned)
    (owner : ∀ other, (Function.update state.threads thread operation other).Owns →
      object.mutex = some other)
    (agrees : ∀ status, operation = .get (.resumed status) →
      (state.object.done = true ↔ status = .noTimeout)) :
    Mirrors { state.put thread operation with object, history } box := by
  have returned_iff : ∀ reader,
      Function.update state.threads thread operation reader = .get .returned ↔
        state.threads reader = .get .returned := by
    intro reader
    by_cases same : reader = thread
    · subst same
      rw [Function.update_self]
      exact ⟨fun returned => absurd returned after, fun returned => absurd returned before⟩
    · rw [Function.update_of_ne same]
  constructor
  · intro pair
    simp only [sameDone, sameResult]
    exact mirrors.content_iff pair
  · intro reader pair
    simp only [State.put, returned_iff, sameResult]
    exact mirrors.handed_iff reader pair
  · intro reader returned
    simp only [State.put, returned_iff, sameDone] at returned ⊢
    exact mirrors.taken reader returned
  · intro reader other returned otherReturned
    simp only [State.put, returned_iff] at returned otherReturned
    exact mirrors.alone reader other returned otherReturned
  · exact owner
  · intro other status resumed
    simp only [State.put, sameDone] at resumed ⊢
    by_cases same : other = thread
    · subst same
      rw [Function.update_self] at resumed
      exact agrees status resumed
    · rw [Function.update_of_ne same] at resumed
      exact mirrors.agrees other status resumed

private theorem Mirrors.outside (mirrors : Mirrors state box) {condVar : CondVar Thread}
    {history : List (Event Thread)} (before : state.threads thread ≠ .get .returned)
    (after : operation ≠ .get .returned) (frees : ¬ operation.Owns) :
    Mirrors { state.put thread operation with
      object := { state.object with condVar }, history } box := by
  have sameDone : ({ state.object with condVar } : AsyncResult Thread).done =
      state.object.done := rfl
  apply mirrors.quiet sameDone rfl before after
  · intro other owns
    by_cases same : other = thread
    · subst same
      rw [Function.update_self] at owns
      exact absurd owns frees
    · rw [Function.update_of_ne same] at owns
      exact mirrors.owner other owns
  · rintro status rfl
    exact absurd trivial frees

private theorem Mirrors.acquired (mirrors : Mirrors state box)
    {history : List (Event Thread)} (free : state.object.mutex = none)
    (before : state.threads thread ≠ .get .returned)
    (after : operation ≠ .get .returned)
    (agrees : ∀ status, operation = .get (.resumed status) →
      (state.object.done = true ↔ status = .noTimeout)) :
    Mirrors { state.put thread operation with
      object := { state.object with mutex := some thread }, history } box := by
  have owner : ∀ other, (Function.update state.threads thread operation other).Owns →
      some thread = some other := by
    intro other owns
    by_cases same : other = thread
    · rw [same]
    · rw [Function.update_of_ne same] at owns
      exact absurd owns (mirrors.not_owns free other)
  exact mirrors.quiet rfl rfl before after owner agrees

/-- After a critical section of the thread nobody owns the mutex. -/
private theorem Mirrors.no_owner (mirrors : Mirrors state box)
    (owns : (state.threads thread).Owns) (frees : ¬ operation.Owns) (other : Thread) :
    ¬ (Function.update state.threads thread operation other).Owns := by
  intro otherOwns
  by_cases same : other = thread
  · subst same
    rw [Function.update_self] at otherOwns
    exact frees otherOwns
  · rw [Function.update_of_ne same] at otherOwns
    exact same (mirrors.owns_unique owns otherOwns)

private theorem Mirrors.released (mirrors : Mirrors state box) {condVar : CondVar Thread}
    {history : List (Event Thread)} (owns : (state.threads thread).Owns)
    (frees : ¬ operation.Owns) (after : operation ≠ .get .returned) :
    Mirrors { state.put thread operation with
      object := { state.object with mutex := none, condVar }, history } box := by
  have before : state.threads thread ≠ .get .returned := by
    intro returned
    rw [returned] at owns
    exact owns
  have sameDone : ({ state.object with mutex := none, condVar } : AsyncResult Thread).done =
      state.object.done := rfl
  apply mirrors.quiet sameDone rfl before after
  · intro other otherOwns
    exact absurd otherOwns (mirrors.no_owner owns frees other)
  · rintro status rfl
    exact absurd trivial frees

/-- The result leaves the mailbox and is handed to the thread. -/
private theorem Mirrors.consumed (mirrors : Mirrors state box)
    {history : List (Event Thread)} (owns : (state.threads thread).Owns)
    (done : state.object.done = true) :
    Mirrors
      { state.put thread (.get .returned) with
        object := { state.object with mutex := none, done := false }, history }
      { content := none
        handed := Function.update box.handed thread (some state.object.result) } := by
  have frees : ¬ (Operation.get .returned).Owns := id
  have unread : ∀ reader, state.threads reader ≠ .get .returned := by
    intro reader returned
    have pending := mirrors.taken reader returned
    rw [done] at pending
    cases pending
  have only : ∀ reader,
      Function.update state.threads thread (.get .returned) reader = .get .returned →
        reader = thread := by
    intro reader returned
    by_contra different
    rw [Function.update_of_ne different] at returned
    exact unread reader returned
  constructor
  · intro pair
    simp
  · intro reader pair
    simp only [State.put]
    by_cases same : reader = thread
    · subst same
      simp
    · rw [Function.update_of_ne same, Function.update_of_ne same]
      exact mirrors.handed_iff reader pair
  · intro reader returned
    rfl
  · intro reader other returned otherReturned
    rw [only reader returned, only other otherReturned]
  · intro other otherOwns
    exact absurd otherOwns (mirrors.no_owner owns frees other)
  · intro other status resumed
    have otherOwns :
        (Function.update state.threads thread (.get .returned) other).Owns := by
      simp only [State.put] at resumed
      rw [resumed]
      trivial
    exact absurd otherOwns (mirrors.no_owner owns frees other)

/-- The result is put into the mailbox while no reader is about to move. -/
private theorem Mirrors.stored (mirrors : Mirrors state box) {condVar : CondVar Thread}
    {history : List (Event Thread)} {result : Str × Str}
    (owns : (state.threads thread).Owns)
    (unread : ∀ reader, state.threads reader ≠ .get .returned) :
    Mirrors
      { state.put thread .idle with
        object := { mutex := none, condVar, done := true, result }, history }
      { box with content := some result } := by
  have frees : ¬ Operation.idle.Owns := id
  have stillUnread : ∀ reader,
      Function.update state.threads thread .idle reader ≠ .get .returned := by
    intro reader returned
    by_cases same : reader = thread
    · subst same
      rw [Function.update_self] at returned
      cases returned
    · rw [Function.update_of_ne same] at returned
      exact unread reader returned
  constructor
  · intro pair
    simp
  · intro reader pair
    have notHanded := mirrors.handed_iff reader pair
    constructor
    · intro handed
      exact absurd (notHanded.mp handed).1 (unread reader)
    · intro returned
      exact absurd returned.1 (stillUnread reader)
  · intro reader returned
    exact absurd returned (stillUnread reader)
  · intro reader other returned
    exact absurd returned (stillUnread reader)
  · intro other otherOwns
    exact absurd otherOwns (mirrors.no_owner owns frees other)
  · intro other status resumed
    have otherOwns : (Function.update state.threads thread .idle other).Owns := by
      simp only [State.put] at resumed
      rw [resumed]
      trivial
    exact absurd otherOwns (mirrors.no_owner owns frees other)

/-- The thread receives what it was handed. -/
private theorem Mirrors.moved (mirrors : Mirrors state box) {history : List (Event Thread)}
    (returned : state.threads thread = .get .returned) :
    Mirrors
      { state.put thread .idle with
        object := { state.object with result := ([], []) }, history }
      { box with handed := Function.update box.handed thread none } := by
  have pending := mirrors.taken thread returned
  have nobody : ∀ reader,
      Function.update state.threads thread .idle reader ≠ .get .returned := by
    intro reader again
    by_cases same : reader = thread
    · subst same
      rw [Function.update_self] at again
      cases again
    · rw [Function.update_of_ne same] at again
      exact same (mirrors.alone reader thread again returned)
  constructor
  · intro pair
    simp only [mirrors.content_eq_none pending, pending]
    simp
  · intro reader pair
    constructor
    · intro handed
      by_cases same : reader = thread
      · subst same
        simp at handed
      · simp only [Function.update_of_ne same] at handed
        have again := (mirrors.handed_iff reader pair).mp handed
        exact absurd (mirrors.alone reader thread again.1 returned) same
    · intro again
      exact absurd again.1 (nobody reader)
  · intro reader again
    exact absurd again (nobody reader)
  · intro reader other again
    exact absurd again (nobody reader)
  · intro other owns
    by_cases same : other = thread
    · subst same
      simp only [State.put, Function.update_self] at owns
      exact absurd owns id
    · simp only [State.put, Function.update_of_ne same] at owns
      exact mirrors.owner other owns
  · intro other status resumed
    by_cases same : other = thread
    · subst same
      simp [State.put] at resumed
    · simp only [State.put, Function.update_of_ne same] at resumed
      exact mirrors.agrees other status resumed

/-- An undisturbed step is a step of the mailbox. -/
theorem Mirrors.follow {after : State Thread} {action : Action Thread}
    (mirrors : Mirrors state box) (undisturbed : Undisturbed state action)
    (stepped : step state action = some after) :
    ∃ events next, after.history = state.history ++ events ∧
      Mailbox.machine.exec events box = some next ∧ Mirrors after next := by
  cases step_effect stepped with
  | outside before afterwards frees =>
      exact ⟨[], box, (List.append_nil _).symm, rfl, mirrors.outside before afterwards frees⟩
  | acquired free before notResumed afterwards =>
      refine ⟨[], box, (List.append_nil _).symm, rfl, ?_⟩
      apply mirrors.acquired free before afterwards
      intro status resumed
      exact absurd resumed (notResumed status)
  | @reacquired thread status free woken =>
      have agree := undisturbed status woken
      have before : state.threads thread ≠ .get .returned := by
        rw [woken]
        simp
      refine ⟨_, box, rfl, ?_, ?_⟩
      · cases status with
        | noTimeout => rfl
        | timeout =>
            have pending : state.object.done = false := by
              simpa using agree
            have empty := mirrors.content_eq_none pending
            simp [getEvents, Machine.exec, Mailbox.machine, Mailbox.step, empty]
      · apply mirrors.acquired free before (by simp)
        intro other same
        cases same
        exact agree
  | released owns frees afterwards =>
      exact ⟨[], box, (List.append_nil _).symm, rfl, mirrors.released owns frees afterwards⟩
  | @consumed thread point at_point consumes =>
      have done : state.object.done = true := by
        rcases consumes with ⟨_, done⟩ | rfl
        · exact done
        · exact (mirrors.agrees thread _ at_point).mpr rfl
      have owns : (state.threads thread).Owns := by
        rw [at_point]
        rcases consumes with ⟨rfl, _⟩ | rfl <;> trivial
      have full := (mirrors.content_iff _).mpr ⟨done, rfl⟩
      refine ⟨_, _, rfl, ?_, mirrors.consumed owns done⟩
      simp [Machine.exec, Mailbox.machine, Mailbox.step, full]
  | @stored thread notified result condVar at_point =>
      have owns : (state.threads thread).Owns := by
        rw [at_point]
        trivial
      exact ⟨_, _, rfl, rfl, mirrors.stored owns undisturbed⟩
  | @moved thread returned =>
      have handed := (mirrors.handed_iff thread _).mpr ⟨returned, rfl⟩
      refine ⟨_, _, rfl, ?_, mirrors.moved returned⟩
      simp [Machine.exec, Mailbox.machine, Mailbox.step, handed]

/-- The object simulates a mailbox while it is undisturbed. -/
def mailboxSimulation :
    (machine : Machine (State Thread) (Action Thread)).Simulation Undisturbed
      (Mailbox.machine : Machine (Mailbox.Box Thread (Str × Str)) (Event Thread)) where
  history := State.history
  related := Mirrors
  startHistory := rfl
  start := by
    constructor <;> simp [machine, Mailbox.machine, Operation.Owns]
  follow mirrors undisturbed stepped := mirrors.follow undisturbed stepped

/-- Undisturbed, the object is a faithful mailbox. -/
theorem faithful_of_undisturbed {trace : List (Action Thread)} {state : State Thread}
    (run : machine.Run Undisturbed trace state) : Mailbox.Faithful state.history := by
  obtain ⟨box, reached, _⟩ := mailboxSimulation.run run
  exact Mailbox.faithful_of_run reached

/-- One thread stores a pair, another one gets it. -/
theorem faithful_storeThenGet :
    Mailbox.Faithful
      [.stored (ascii "", ascii "3"), .consumed 0, .received 0 (ascii "", ascii "3")] := by
  have run : ∃ state : State Nat,
      machine.Run Undisturbed [.set 1 (ascii "", ascii "3"), .advance 1, .store 1 none, .get 0,
        .advance 0, .advance 0, .move 0] state ∧
      state.history =
        [.stored (ascii "", ascii "3"), .consumed 0, .received 0 (ascii "", ascii "3")] := by
    refine ⟨_, ((((((Machine.Run.start.next trivial rfl).next ?_ rfl).next ?_ rfl).next
      trivial rfl).next ?_ rfl).next ?_ rfl).next trivial rfl, rfl⟩
    · intro status woken
      cases woken
    · intro reader returned
      by_cases same : reader = 1
      · subst same
        cases returned
      · simp [State.put, Function.update_of_ne same, machine] at returned
    · intro status woken
      cases woken
    · intro status woken
      cases woken
  obtain ⟨state, run, same⟩ := run
  rw [← same]
  exact faithful_of_undisturbed run

/-- A reader that wakes up for no reason receives a pair nobody stored. -/
theorem not_faithful_spuriousWakeup :
    ¬ ∀ (trace : List (Action Nat)) (state : State Nat),
      machine.Run Machine.always trace state → Mailbox.Faithful state.history := by
  intro faithful
  have reached : ((machine.exec [.get 0, .advance 0, .advance 0, .wake 0 .noTimeout,
      .advance 0, .advance 0, .move 0] machine.init).any fun state : State Nat =>
        state.history = [.consumed 0, .received 0 ([], [])]) = true := by
    decide +kernel
  obtain ⟨state, run, spurious⟩ := Machine.Run.of_exec_any (fun _ _ _ => trivial) reached
  obtain ⟨before, after, same, ⟨earlier, later, stored, _⟩, _⟩ :=
    (faithful _ _ run).received [.consumed 0] 0 ([], []) [] (of_decide_eq_true spurious)
  have member : Mailbox.Event.stored ([], []) ∈ ([.consumed 0] : List (Event Nat)) := by
    rw [same, stored]
    simp
  simp at member

end AsyncResult

end Ccmqsrv
