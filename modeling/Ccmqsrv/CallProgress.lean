import Ccmqsrv.ClientLocks

/-!
# Whether a call can finish on its own

A call whose reply is stored should need nothing but its own steps and the
critical sections of the threads that hold a mutex.  It needs
`req_events_mtx`, and a call holds this mutex while it waits for its reply in
`get`.  So a call is held up exactly when it waits for the mutex and the
holder waits for a reply of its own.
-/

namespace Ccmqsrv

open Foundations

namespace Client

/-- The call is registered and goes on to its locked block. -/
def CallPoint.Approaches (env : Env) (call : Call) : CallPoint → Prop
  | .encode => ∃ body, rpcEncodeReq env call.id call.meth call.args = .ok body
  | .send _ => True
  | .sending _ => True
  | .await => True
  | _ => False

/-- The call holds `req_events_mtx` and goes on only with its reply. -/
def CallPoint.NeedsReply : CallPoint → Prop
  | .lookup => True
  | .get .enter => True
  | .get .locked => True
  | .get .blocked => True
  | _ => False

/-- The thread holds one of the mutexes of the client. -/
def State.HoldsMutex (state : State) (thread : Thread) : Prop :=
  state.reqEventsMtx = some thread ∨ state.sendMtx = some thread ∨
    state.pubMtx = some thread ∨
    ∃ id object, state.object id = some object ∧ object.mutex = some thread

/-- The thread is blocked in `get` and was notified. -/
def State.Notified (state : State) (user : Nat) : Prop :=
  ∃ call object, state.users user = .call call (.get .blocked) ∧
    state.object call.id = some object ∧ .user user ∉ object.condVar

/-- Steps of the caller and of threads that hold a mutex: no message arrives,
no call begins, and a wait ends by its notification only.  The critical
section of the event loop is the one of `set`. -/
def OwnSteps (caller : Nat) (state : State) : Action → Prop
  | .advance (.user user) => user = caller ∨ state.HoldsMutex (.user user)
  | .advance .loop => False
  | .wake user status =>
      (user = caller ∨ state.HoldsMutex (.user user)) ∧ state.Notified user ∧
        status = .noTimeout
  | .store _ => True
  | .call _ _ _ _ _ => False
  | .publish _ _ _ _ => False
  | .wakePublisher _ => False
  | .deliver _ => False
  | .bindSuccess => False

/-- The call of this thread can return or throw by such steps. -/
def Completes (env : Env) (config : Config) (state : State) (caller : Nat) : Prop :=
  ∃ final, (machine env config).Leads (OwnSteps caller) state final ∧
    final.users caller = .idle

/-- The thread is in the locked block of a call whose reply is neither stored
nor being stored. -/
def AwaitsReply (state : State) (holder : Nat) : Prop :=
  ∃ call point object, state.users holder = .call call point ∧ point.NeedsReply ∧
    state.object call.id = some object ∧ object.done = false ∧
    ¬ state.loop.Storing call.id

/-- The call of this thread is about to acquire `req_events_mtx`, and the
holder of the mutex waits for a reply. -/
def HeldUp (env : Env) (state : State) (caller : Nat) : Prop :=
  ∃ call point holder, state.users caller = .call call point ∧ point.Approaches env call ∧
    state.reqEventsMtx = some (.user holder) ∧ AwaitsReply state holder

variable {env : Env} {config : Config} {state after : State} {action : Action}
  {caller user : Nat} {call : Call} {point : CallPoint}

private theorem CallPoint.NeedsReply.holdsTable (needs : point.NeedsReply) :
    point.HoldsTable := by
  cases point with
  | lookup => trivial
  | get point => trivial
  | _ => exact False.elim needs

private theorem CallPoint.NeedsReply.registered (needs : point.NeedsReply) :
    point.Registered := by
  cases point with
  | lookup => trivial
  | get point => trivial
  | _ => exact False.elim needs

private theorem CallPoint.NeedsReply.beforeTake (needs : point.NeedsReply) :
    point.BeforeTake := by
  cases point with
  | get point =>
      cases point with
      | returned => exact needs
      | threw => exact needs
      | _ => trivial
  | lookup => trivial
  | _ => exact False.elim needs

section HeldUp

variable {holder : Nat}

/-- A step of another thread does not help a call that waits for its reply. -/
private theorem AwaitsReply.frame (awaits : AwaitsReply state holder)
    (users : after.users holder = state.users holder)
    (objects : ∀ call point, state.users holder = .call call point → point.Registered →
      ¬ state.loop.Storing call.id →
        after.object call.id = state.object call.id ∧ ¬ after.loop.Storing call.id) :
    AwaitsReply after holder := by
  obtain ⟨call, point, object, inCall, needs, found, pending, notStoring⟩ := awaits
  obtain ⟨same, stillNot⟩ := objects call point inCall needs.registered notStoring
  refine ⟨call, point, object, ?_, needs, ?_, pending, stillNot⟩
  · rw [users]
    exact inCall
  · rw [same]
    exact found

/-- Nor does a step of its own. -/
private theorem AwaitsReply.own (awaits : AwaitsReply state holder)
    (inCall : state.users holder = .call call point)
    (effect : CallEffect env config state holder call point after) :
    AwaitsReply after holder := by
  obtain ⟨other, here, object, otherInCall, needs, found, pending, notStoring⟩ := awaits
  rw [inCall] at otherInCall
  cases otherInCall
  have loop := effect.loop_eq
  cases effect with
  | lookup located =>
      exact ⟨call, .get .enter, object, Function.update_self .., trivial, found, pending, notStoring⟩
  | lookupNull missing =>
      rw [missing] at found
      cases found
  | get located advanced =>
      rw [located] at found
      cases found
      have updated := State.object_setObject_self state call.id
      cases advanced with
      | lock free =>
          exact ⟨call, .get .locked, _, Function.update_self .., trivial, updated _, pending,
            notStoring⟩
      | take done =>
          rw [done] at pending
          cases pending
      | block stillPending =>
          exact ⟨call, .get .blocked, _, Function.update_self .., trivial, updated _, pending,
            notStoring⟩
      | relock status free => exact False.elim needs
      | throw => exact False.elim needs
      | resume => exact False.elim needs
  | getDestroyed notThrew missing =>
      rw [missing] at found
      cases found
  | _ => exact False.elim needs

private theorem AwaitsReply.not_notified (awaits : AwaitsReply state holder)
    (consistent : Consistent state) : ¬ state.Notified holder := by
  obtain ⟨call, point, object, inCall, needs, found, pending, notStoring⟩ := awaits
  rintro ⟨other, otherObject, otherInCall, otherFound, notified⟩
  rw [inCall] at otherInCall
  cases otherInCall
  rw [found] at otherFound
  cases otherFound
  obtain ⟨located, foundLocated, fits⟩ := consistent.entries _ _ _ inCall trivial
  rw [found] at foundLocated
  cases foundLocated
  rcases fits.notified rfl with blocked | done
  · exact notified blocked
  · rw [done] at pending
    cases pending

/-- A call that waits for its reply goes on waiting. -/
private theorem AwaitsReply.next (awaits : AwaitsReply state holder)
    (consistent : Consistent state) (ownSteps : OwnSteps caller state action)
    (effect : Effect env config state action after) : AwaitsReply after holder := by
  have notNotified := awaits.not_notified consistent
  cases effect with
  | @callStep user call point _ inCall effect =>
      by_cases isHolder : user = holder
      · subst isHolder
        exact awaits.own inCall effect
      · apply awaits.frame (effect.users_of_ne (Ne.symm isHolder))
        intro other otherPoint otherInCall _ notStoring
        have different : other.id ≠ call.id := fun same =>
          isHolder (consistent.distinct.unique inCall otherInCall same.symm)
        rw [effect.loop_eq]
        exact ⟨effect.object_of_ne different, notStoring⟩
  | @publishStep user _ _ _ _ activity effect =>
      have frame := effect.frame
      obtain ⟨next, users, _⟩ := frame.users
      have isOther : holder ≠ user := by
        rintro rfl
        obtain ⟨_, _, _, inCall, _⟩ := awaits
        rw [activity] at inCall
        cases inCall
      apply awaits.frame
      · rw [users, Function.update_of_ne isOther]
      · intro other otherPoint _ _ notStoring
        unfold State.object
        rw [frame.reqEvents, frame.loop]
        exact ⟨rfl, notStoring⟩
  | loopStep effect => exact False.elim ownSteps
  | @wake user status call object inCall found =>
      have isOther : holder ≠ user := by
        rintro rfl
        exact notNotified ownSteps.2.1
      apply awaits.frame (Function.update_of_ne isOther ..)
      intro other otherPoint otherInCall _ notStoring
      have different : other.id ≠ call.id := fun same =>
        isOther (consistent.distinct.unique otherInCall inCall same)
      exact ⟨State.object_setObject_of_ne _ _ _ different, notStoring⟩
  | wakeDestroyed inCall missing =>
      exact awaits.frame rfl fun _ _ _ _ notStoring => ⟨rfl, notStoring⟩
  | @store notified id result object condVar at_point found chosen =>
      refine awaits.frame rfl ?_
      intro other otherPoint otherInCall _ notStoring
      have different : other.id ≠ id := by
        rintro rfl
        apply notStoring
        rw [at_point]
        rfl
      exact ⟨State.object_setObject_of_ne _ _ _ different, fun impossible => impossible⟩
  | storeDestroyed at_point missing =>
      exact awaits.frame rfl fun _ _ _ _ notStoring => ⟨rfl, notStoring⟩
  | _ => exact False.elim ownSteps

/-- The caller does not get into its locked block while the mutex is taken. -/
private theorem approaches_next (inCall : state.users caller = .call call point)
    (approaches : point.Approaches env call) (taken : state.reqEventsMtx ≠ none)
    (ownSteps : OwnSteps caller state action)
    (effect : Effect env config state action after) :
    ∃ next, after.users caller = .call call next ∧ next.Approaches env call := by
  cases effect with
  | @callStep user _ _ _ stepping effect =>
      by_cases same : caller = user
      · subst same
        rw [inCall] at stepping
        cases stepping
        cases effect with
        | encode encoded => exact ⟨_, Function.update_self .., trivial⟩
        | encodeFault failed =>
            obtain ⟨body, encoded⟩ := approaches
            rw [failed] at encoded
            cases encoded
        | lockSend free => exact ⟨_, Function.update_self .., trivial⟩
        | send => exact ⟨_, Function.update_self .., trivial⟩
        | lockAwait free => exact absurd free taken
        | _ => exact False.elim approaches
      · exact ⟨point, (effect.users_of_ne same).trans inCall, approaches⟩
  | @publishStep user _ _ _ _ activity effect =>
      obtain ⟨next, users, _⟩ := effect.frame.users
      have isOther : caller ≠ user := by
        rintro rfl
        rw [inCall] at activity
        cases activity
      refine ⟨point, ?_, approaches⟩
      rw [users, Function.update_of_ne isOther]
      exact inCall
  | loopStep effect => exact False.elim ownSteps
  | @wake user status other object waking found =>
      have isOther : caller ≠ user := by
        rintro rfl
        rw [inCall] at waking
        cases waking
        exact approaches
      exact ⟨point, (Function.update_of_ne isOther ..).trans inCall, approaches⟩
  | wakeDestroyed waking missing => exact ⟨point, inCall, approaches⟩
  | store at_point found chosen => exact ⟨point, inCall, approaches⟩
  | storeDestroyed at_point missing => exact ⟨point, inCall, approaches⟩
  | _ => exact False.elim ownSteps

private theorem HeldUp.next (heldUp : HeldUp env state caller) (consistent : Consistent state)
    (ownSteps : OwnSteps caller state action)
    (effect : Effect env config state action after) : HeldUp env after caller := by
  obtain ⟨call, point, holder, inCall, approaches, taken, awaits⟩ := heldUp
  have awaitsAfter := awaits.next consistent ownSteps effect
  obtain ⟨next, stillInCall, stillApproaches⟩ :=
    approaches_next inCall approaches (by simp [taken]) ownSteps effect
  refine ⟨call, next, holder, stillInCall, stillApproaches, ?_, awaitsAfter⟩
  obtain ⟨holderCall, point, _, holderInCall, needs, _⟩ := awaitsAfter
  apply ((consistent.next effect).owned (.user holder)).mpr
  simp only [State.HoldsTable, holderInCall]
  exact needs.holdsTable

/-- A call that is held up does not complete by its own steps. -/
theorem not_completes_of_heldUp (reachable : (machine env config).Reachable state)
    (heldUp : HeldUp env state caller) : ¬ Completes env config state caller := by
  rintro ⟨final, leads, idle⟩
  have stillHeldUp : Consistent final ∧ HeldUp env final caller := by
    apply leads.invariant (fun state => Consistent state ∧ HeldUp env state caller)
    · exact ⟨consistent_of_reachable reachable, heldUp⟩
    · intro between after action held ownSteps stepped
      have effect := (step_effect stepped).2
      exact ⟨held.1.next effect, held.2.next held.1 ownSteps effect⟩
  obtain ⟨_, call, _, _, inCall, _⟩ := stillHeldUp
  rw [idle] at inCall
  cases inCall

end HeldUp

section Release

/-- A running client with this call, to which no reply is being stored. -/
private structure Running (env : Env) (config : Config) (state : State) (user : Nat) (call : Call)
    (point : CallPoint) : Prop where
  reachable : (machine env config).Reachable state
  alive : state.fault = none
  inCall : state.users user = .call call point
  notStoring : ¬ state.loop.Storing call.id

/-- The other threads and entries are as before. -/
private structure Aside (state after : State) (user : Nat) (call : Call) : Prop where
  users : ∀ other, other ≠ user → after.users other = state.users other
  objects : ∀ id, id ≠ call.id → after.object id = state.object id

private theorem Aside.refl (state : State) (user : Nat) (call : Call) :
    Aside state state user call :=
  ⟨fun _ _ => rfl, fun _ _ => rfl⟩

private theorem Aside.trans {between : State} (first : Aside state between user call)
    (second : Aside between after user call) : Aside state after user call where
  users := fun other different => (second.users other different).trans (first.users other different)
  objects := fun id different => (second.objects id different).trans (first.objects id different)

/-- The call has left its locked block: it is past it, or it threw. -/
private def Past (state : State) (user : Nat) (call : Call) : Prop :=
  state.users user = .idle ∨ ∃ ret, state.users user = .call call (.finish ret)

/-- By own steps the call leaves its locked block and frees `req_events_mtx`. -/
private def Releases (env : Env) (config : Config) (caller : Nat) (state : State) (user : Nat)
    (call : Call) : Prop :=
  ∃ final, (machine env config).Leads (OwnSteps caller) state final ∧
    (machine env config).Reachable final ∧ final.fault = none ∧ final.reqEventsMtx = none ∧
      Past final user call ∧ Aside state final user call

private theorem Releases.of_leads {between : State}
    (leads : (machine env config).Leads (OwnSteps caller) state between)
    (aside : Aside state between user call)
    (releases : Releases env config caller between user call) :
    Releases env config caller state user call := by
  obtain ⟨final, later, reachable, alive, free, past, asideLater⟩ := releases
  exact ⟨final, leads.trans later, reachable, alive, free, past, aside.trans asideLater⟩

theorem advance_of_effect (alive : state.fault = none)
    (inCall : state.users user = .call call point)
    (effect : CallEffect env config state user call point after) :
    (machine env config).step state (.advance (.user user)) = some after := by
  have stepped := callStep_eq_some.mpr effect
  simp [machine, step, alive, inCall, stepped]

private theorem Running.consistent (running : Running env config state user call point) :
    Consistent state :=
  consistent_of_reachable running.reachable

/-- A call in its locked block may go on. -/
private theorem Running.step (running : Running env config state user call point)
    (holds : point.HoldsTable) (effect : CallEffect env config state user call point after) :
    (machine env config).Leads (OwnSteps caller) state after ∧
      (machine env config).Reachable after ∧ Aside state after user call := by
  have stepped := advance_of_effect running.alive running.inCall effect
  have owner : state.reqEventsMtx = some (.user user) := by
    apply (running.consistent.owned (.user user)).mpr
    simp only [State.HoldsTable, running.inCall]
    exact holds
  have allowed : OwnSteps caller state (.advance (.user user)) := Or.inr (Or.inl owner)
  refine ⟨Machine.Leads.step allowed stepped, running.reachable.next stepped, ?_, ?_⟩
  · exact fun other different => effect.users_of_ne different
  · exact fun id different => effect.object_of_ne different

/-- The rest of a call is shorter by one step. -/
private theorem Running.continue (running : Running env config state user call point)
    (holds : point.HoldsTable) {next : CallPoint}
    (effect : CallEffect env config state user call point after)
    (alive : after.fault = none) (inCall : after.users user = .call call next)
    (rest : Running env config after user call next →
      Releases env config caller after user call) :
    Releases env config caller state user call := by
  obtain ⟨leads, reachable, aside⟩ := running.step holds effect
  apply Releases.of_leads leads aside
  apply rest
  refine ⟨reachable, alive, inCall, ?_⟩
  rw [effect.loop_eq]
  exact running.notStoring

private theorem Running.last (running : Running env config state user call point)
    (holds : point.HoldsTable) (effect : CallEffect env config state user call point after)
    (alive : after.fault = none) (free : after.reqEventsMtx = none)
    (past : Past after user call) : Releases env config caller state user call := by
  obtain ⟨leads, reachable, aside⟩ := running.step holds effect
  exact ⟨after, leads, reachable, alive, free, past, aside⟩

private theorem releases_of_erase {ret : Str × Str}
    (running : Running env config state user call (.erase ret)) :
    Releases env config caller state user call :=
  running.last trivial CallEffect.erase running.alive rfl
    (Or.inr ⟨ret, Function.update_self ..⟩)

private theorem releases_of_threw
    (running : Running env config state user call (.get .threw)) :
    Releases env config caller state user call :=
  running.last trivial CallEffect.throw running.alive rfl (Or.inl (Function.update_self ..))

private theorem Running.object (running : Running env config state user call point)
    (registered : point.Registered) :
    ∃ object, state.object call.id = some object ∧ Fits state user call point object :=
  running.consistent.entries _ _ _ running.inCall registered

/-- Nobody holds the mutex of the object but the call itself. -/
private theorem Running.free (running : Running env config state user call point)
    {object : AsyncResult Thread} (fits : Fits state user call point object)
    (notOwns : ¬ point.OwnsObject) : object.mutex = none := by
  cases owner : object.mutex with
  | none => rfl
  | some thread =>
      rcases (fits.owned thread).mp owner with ⟨_, owns⟩ | ⟨_, storing⟩
      · exact absurd owns notOwns
      · exact absurd storing running.notStoring

private theorem releases_of_returned
    (running : Running env config state user call (.get .returned)) :
    Releases env config caller state user call := by
  obtain ⟨object, found, _⟩ := running.object trivial
  exact running.continue trivial (CallEffect.move found) running.alive (Function.update_self ..)
    releases_of_erase

private theorem releases_of_resumed {status : CvStatus}
    (running : Running env config state user call (.get (.resumed status))) :
    Releases env config caller state user call := by
  obtain ⟨object, found, _⟩ := running.object trivial
  cases status with
  | timeout =>
      exact running.continue trivial (CallEffect.get found .throw) running.alive
        (Function.update_self ..) releases_of_threw
  | noTimeout =>
      exact running.continue trivial (CallEffect.get found .resume) running.alive
        (Function.update_self ..) releases_of_returned

private theorem releases_of_woken {status : CvStatus}
    (running : Running env config state user call (.get (.woken status))) :
    Releases env config caller state user call := by
  obtain ⟨object, found, fits⟩ := running.object trivial
  have free := running.free fits id
  exact running.continue trivial (CallEffect.get found (.relock status free)) running.alive
    (Function.update_self ..) releases_of_resumed

/-- A notified call wakes up. -/
private theorem releases_of_blocked
    (running : Running env config state user call (.get .blocked))
    {object : AsyncResult Thread} (found : state.object call.id = some object)
    (done : object.done = true) : Releases env config caller state user call := by
  obtain ⟨located, foundLocated, fits⟩ := running.object trivial
  rw [found] at foundLocated
  cases foundLocated
  have notified : state.Notified user := by
    refine ⟨call, object, running.inCall, found, fun blocked => ?_⟩
    have pending := (fits.waiting _ blocked).2.2
    rw [done] at pending
    cases pending
  have owner : state.reqEventsMtx = some (.user user) := by
    apply (running.consistent.owned (.user user)).mpr
    simp only [State.HoldsTable, running.inCall]
    trivial
  have allowed : OwnSteps caller state (.wake user .noTimeout) :=
    ⟨Or.inr (Or.inl owner), notified, rfl⟩
  have stepped : (machine env config).step state (.wake user .noTimeout) =
      some ((state.setObject call.id (object.wake (.user user))).put user
        (.call call (.get (.woken .noTimeout)))) := by
    simp [machine, Client.step, running.alive, running.inCall, found]
  apply Releases.of_leads (Machine.Leads.step allowed stepped)
  · constructor
    · exact fun other different => Function.update_of_ne different ..
    · exact fun id different => State.object_setObject_of_ne _ _ _ different
  · exact releases_of_woken ⟨running.reachable.next stepped, running.alive,
      Function.update_self .., running.notStoring⟩

private theorem releases_of_locked
    (running : Running env config state user call (.get .locked))
    {object : AsyncResult Thread} (found : state.object call.id = some object)
    (done : object.done = true) : Releases env config caller state user call :=
  running.continue trivial (CallEffect.get found (.take done)) running.alive
    (Function.update_self ..) releases_of_returned

private theorem releases_of_enter
    (running : Running env config state user call (.get .enter))
    {object : AsyncResult Thread} (found : state.object call.id = some object)
    (done : object.done = true) : Releases env config caller state user call := by
  obtain ⟨located, foundLocated, fits⟩ := running.object trivial
  rw [found] at foundLocated
  cases foundLocated
  have free := running.free fits id
  exact running.continue trivial (CallEffect.get found (.lock free)) running.alive
    (Function.update_self ..) fun later =>
      releases_of_locked later (State.object_setObject_self ..) done

private theorem releases_of_lookup
    (running : Running env config state user call .lookup)
    {object : AsyncResult Thread} (found : state.object call.id = some object)
    (done : object.done = true) : Releases env config caller state user call :=
  running.continue trivial (CallEffect.lookup found) running.alive
    (Function.update_self ..) fun later => releases_of_enter later found done

/-- A call in its locked block leaves it when it does not need a reply or has
it. -/
private theorem releases_of_done (running : Running env config state user call point)
    (holds : point.HoldsTable) (registered : point.Registered)
    (ready : point.NeedsReply → ∃ object, state.object call.id = some object ∧
      object.done = true) : Releases env config caller state user call := by
  cases point with
  | lookup =>
      obtain ⟨object, found, done⟩ := ready trivial
      exact releases_of_lookup running found done
  | get point =>
      cases point with
      | enter =>
          obtain ⟨object, found, done⟩ := ready trivial
          exact releases_of_enter running found done
      | locked =>
          obtain ⟨object, found, done⟩ := ready trivial
          exact releases_of_locked running found done
      | blocked =>
          obtain ⟨object, found, done⟩ := ready trivial
          exact releases_of_blocked running found done
      | woken status => exact releases_of_woken running
      | resumed status => exact releases_of_resumed running
      | returned => exact releases_of_returned running
      | threw => exact releases_of_threw running
  | erase ret => exact releases_of_erase running
  | registering => exact False.elim registered
  | _ => exact False.elim holds

/-- A result that is being stored gets stored. -/
private theorem settle (reachable : (machine env config).Reachable state)
    (alive : state.fault = none) (inCall : state.users user = .call call point)
    (registered : point.Registered) :
    ∃ between, (machine env config).Leads (OwnSteps caller) state between ∧
      Running env config between user call point ∧ Aside state between user call ∧
      ∀ object, state.object call.id = some object →
        object.done = true ∨ state.loop.Storing call.id →
          ∃ later, between.object call.id = some later ∧ later.done = true := by
  by_cases storing : state.loop.Storing call.id
  · cases at_point : state.loop with
    | set id result point =>
        rw [at_point] at storing
        cases point with
        | enter => exact False.elim storing
        | locked =>
            cases storing
            have consistent := consistent_of_reachable reachable
            obtain ⟨object, found, _⟩ := consistent.entries _ _ _ inCall registered
            obtain ⟨notified, condVar, chosen⟩ := CondVar.exists_notifyOne object.condVar
            have stepped : (machine env config).step state (.store notified) = some
                { (state.setObject call.id { mutex := none, condVar, done := true, result }).record
                    [.stored call.id result] with loop := .idle } := by
              simp [machine, step, alive, at_point, found, AsyncResult.setResult, chosen]
            have updated := State.object_setObject_self state call.id
              { mutex := none, condVar, done := true, result }
            have allowed : OwnSteps caller state (.store notified) := trivial
            refine ⟨_, Machine.Leads.step allowed stepped,
              ⟨reachable.next stepped, alive, inCall, fun impossible => impossible⟩,
              ⟨fun _ _ => rfl, fun id different => ?_⟩, fun _ _ _ => ⟨_, updated, rfl⟩⟩
            exact State.object_setObject_of_ne state _ _ different
    | _ =>
        rw [at_point] at storing
        exact False.elim storing
  · refine ⟨state, .refl, ⟨reachable, alive, inCall, storing⟩, Aside.refl state user call, ?_⟩
    intro object found ready
    rcases ready with done | storingNow
    · exact ⟨object, found, done⟩
    · exact absurd storingNow storing

private theorem releases_of_not_awaits (reachable : (machine env config).Reachable state)
    (alive : state.fault = none) (inCall : state.users user = .call call point)
    (holds : point.HoldsTable) (registered : point.Registered)
    (notAwaits : ¬ AwaitsReply state user) : Releases env config caller state user call := by
  have consistent := consistent_of_reachable reachable
  obtain ⟨object, found, _⟩ := consistent.entries _ _ _ inCall registered
  obtain ⟨between, leads, running, aside, ready⟩ := settle reachable alive inCall registered
  apply Releases.of_leads leads aside
  apply releases_of_done running holds registered
  intro needs
  apply ready object found
  by_contra neither
  rw [not_or, Bool.not_eq_true] at neither
  exact notAwaits ⟨call, point, object, inCall, needs, found, neither⟩

/-- The holder of `req_events_mtx` gives it back. -/
private theorem frees_of_not_awaits (reachable : (machine env config).Reachable state)
    (alive : state.fault = none) (inCall : state.users user = .call call point)
    (holds : point.HoldsTable) (notAwaits : ¬ AwaitsReply state user) :
    ∃ final, (machine env config).Leads (OwnSteps caller) state final ∧
      (machine env config).Reachable final ∧ final.fault = none ∧ final.reqEventsMtx = none ∧
        Aside state final user call := by
  by_cases registering : point = .registering
  · subst registering
    have untouched := (consistent_of_reachable reachable).fresh call.id
      (Or.inr ⟨user, call, _, inCall, trivial, rfl⟩)
    have running : Running env config state user call .registering :=
      ⟨reachable, alive, inCall, fun storing => untouched.loop (LoopPoint.Storing.handles storing)⟩
    obtain ⟨leads, reached, aside⟩ := running.step trivial CallEffect.register
    exact ⟨_, leads, reached, alive, rfl, aside⟩
  · have registered : point.Registered := by
      cases point with
      | registering => exact absurd rfl registering
      | lookup => trivial
      | get point => trivial
      | erase ret => trivial
      | _ => exact False.elim holds
    obtain ⟨final, leads, reached, stillAlive, free, _, aside⟩ :=
      releases_of_not_awaits reachable alive inCall holds registered notAwaits
    exact ⟨final, leads, reached, stillAlive, free, aside⟩

end Release

/-- The last step of a call needs no mutex. -/
private theorem completes_of_past (alive : state.fault = none) (past : Past state caller call) :
    Completes env config state caller := by
  rcases past with idle | ⟨ret, inCall⟩
  · exact ⟨state, .refl, idle⟩
  · have stepped := advance_of_effect alive inCall
      (CallEffect.finish : CallEffect env config state caller call (.finish ret) _)
    have allowed : OwnSteps caller state (.advance (.user caller)) := Or.inl rfl
    exact ⟨_, Machine.Leads.step allowed stepped, Function.update_self ..⟩

private theorem completes_of_holds (reachable : (machine env config).Reachable state)
    (alive : state.fault = none) (inCall : state.users caller = .call call point)
    (holds : point.HoldsTable) (registered : point.Registered)
    (notAwaits : ¬ AwaitsReply state caller) : Completes env config state caller := by
  obtain ⟨between, leads, reached, stillAlive, _, past, _⟩ :=
    releases_of_not_awaits reachable alive inCall holds registered notAwaits
  obtain ⟨final, later, idle⟩ := completes_of_past stillAlive past
  exact ⟨final, leads.trans later, idle⟩

/-- With a free mutex and a stored reply the call goes through. -/
private theorem completes_of_free (reachable : (machine env config).Reachable state)
    (alive : state.fault = none) (inCall : state.users caller = .call call .await)
    (free : state.reqEventsMtx = none) {object : AsyncResult Thread}
    (found : state.object call.id = some object) (done : object.done = true) :
    Completes env config state caller := by
  have effect := (CallEffect.lockAwait free :
    CallEffect env config state caller call .await _)
  have stepped := advance_of_effect alive inCall effect
  have entered := Function.update_self caller (Activity.call call .lookup) state.users
  have allowed : OwnSteps caller state (.advance (.user caller)) := Or.inl rfl
  have complete := completes_of_holds (reachable.next stepped) alive entered trivial trivial
    (by
      rintro ⟨other, point, otherObject, otherInCall, _, otherFound, pending, _⟩
      have sameCall := entered.symm.trans otherInCall
      cases sameCall
      have sameObject := found.symm.trans otherFound
      cases sameObject
      rw [done] at pending
      cases pending)
  obtain ⟨final, leads, idle⟩ := complete
  exact ⟨final, (Machine.Leads.step allowed stepped).trans leads, idle⟩

/-- The thread that holds `req_events_mtx` is in a call. -/
private theorem holder_of_taken (consistent : Consistent state) {thread : Thread}
    (taken : state.reqEventsMtx = some thread) :
    ∃ holder call point, thread = .user holder ∧ state.users holder = .call call point ∧
      point.HoldsTable := by
  have inside := (consistent.owned thread).mp taken
  cases thread with
  | loop => exact False.elim inside
  | user holder =>
      cases activity : state.users holder with
      | call call point =>
          simp only [State.HoldsTable, activity] at inside
          exact ⟨holder, call, point, rfl, activity, inside⟩
      | _ => simp [State.HoldsTable, activity] at inside

/-- A call that waits for the mutex gets it from a holder that can go on. -/
private theorem completes_of_await (reachable : (machine env config).Reachable state)
    (alive : state.fault = none) (inCall : state.users caller = .call call .await)
    {object : AsyncResult Thread} (found : state.object call.id = some object)
    (done : object.done = true) (notHeldUp : ¬ HeldUp env state caller) :
    Completes env config state caller := by
  have consistent := consistent_of_reachable reachable
  cases taken : state.reqEventsMtx with
  | none => exact completes_of_free reachable alive inCall taken found done
  | some thread =>
      obtain ⟨holder, other, point, rfl, otherInCall, holds⟩ := holder_of_taken consistent taken
      have isOther : caller ≠ holder := by
        rintro rfl
        rw [inCall] at otherInCall
        cases otherInCall
        exact holds
      have differentId : call.id ≠ other.id := fun same =>
        isOther (consistent.distinct.unique inCall otherInCall same)
      have notAwaits : ¬ AwaitsReply state holder := fun awaits =>
        notHeldUp ⟨call, .await, holder, inCall, trivial, taken, awaits⟩
      obtain ⟨between, leads, reached, stillAlive, free, aside⟩ :=
        frees_of_not_awaits reachable alive otherInCall holds notAwaits
      have stillInCall := (aside.users caller isOther).trans inCall
      have stillFound := (aside.objects call.id differentId).trans found
      obtain ⟨final, later, idle⟩ :=
        completes_of_free reached stillAlive stillInCall free stillFound done
      exact ⟨final, leads.trans later, idle⟩

/-- What a step before the locked block leaves alone. -/
private structure Alongside (state after : State) (user : Nat) : Prop where
  users : ∀ other, other ≠ user → after.users other = state.users other
  objects : ∀ id, after.object id = state.object id
  loop : after.loop = state.loop
  table : after.reqEventsMtx = state.reqEventsMtx

/-- A step before the locked block does not make a call held up. -/
private theorem Alongside.heldUp (alongside : Alongside state after user)
    (consistent : Consistent state) (notHolds : ¬ state.HoldsTable (.user user))
    (inCall : state.users caller = .call call point) (approaches : point.Approaches env call)
    (heldUp : HeldUp env after caller) : HeldUp env state caller := by
  obtain ⟨_, _, holder, _, _, takenAfter, awaits⟩ := heldUp
  have taken := alongside.table.symm.trans takenAfter
  have isOther : holder ≠ user := by
    rintro rfl
    exact notHolds ((consistent.owned _).mp taken)
  refine ⟨call, point, holder, inCall, approaches, taken, ?_⟩
  apply awaits.frame (alongside.users holder isOther).symm
  intro other _ _ _ notStoring
  rw [← alongside.loop]
  exact ⟨(alongside.objects other.id).symm, notStoring⟩

/-- The thread holds `send_mtx`. -/
def Activity.Sending : Activity → Prop
  | .call _ (.sending _) => True
  | .publish _ _ .sending => True
  | _ => False

/-- Whoever holds `send_mtx` is sending. -/
private def SendTaken (state : State) : Prop :=
  ∀ thread, state.sendMtx = some thread →
    ∃ user, thread = .user user ∧ (state.users user).Sending

private theorem Activity.Holds.sending {activity : Activity} (holds : activity.Holds .send) :
    activity.Sending := by
  cases activity with
  | idle => exact False.elim holds
  | call call point =>
      cases point with
      | sending body => trivial
      | _ => exact False.elim holds
  | publish routingKey data point =>
      cases point with
      | sending => trivial
      | _ => exact False.elim holds

private theorem sendTaken_of_reachable (reachable : (machine env config).Reachable state) :
    SendTaken state := by
  have accounted : Accounted state := accounted_of_reachable (shared_of_reachable reachable)
  intro thread held
  have holds := accounted .send thread held
  cases thread with
  | loop => exact False.elim holds
  | user user => exact ⟨user, rfl, Activity.Holds.sending holds⟩

/-- A call whose reply is stored and that is not held up. -/
private structure Answered (env : Env) (config : Config) (state : State) (caller : Nat)
    (call : Call) (point : CallPoint) : Prop where
  reachable : (machine env config).Reachable state
  alive : state.fault = none
  inCall : state.users caller = .call call point
  stored : ∃ result, .stored call.id result ∈ state.history
  notHeldUp : ¬ HeldUp env state caller

private theorem Answered.consistent (answered : Answered env config state caller call point) :
    Consistent state :=
  consistent_of_reachable answered.reachable

/-- The result of an answered call is done until it is taken. -/
private theorem Answered.done (answered : Answered env config state caller call point)
    (registered : point.Registered) (early : point.BeforeTake) :
    ∃ object, state.object call.id = some object ∧ object.done = true := by
  obtain ⟨object, found, fits⟩ :=
    answered.consistent.entries _ _ _ answered.inCall registered
  obtain ⟨result, stored⟩ := answered.stored
  exact ⟨object, found, fits.done_of_stored result stored early⟩

private theorem CallPoint.Approaches.not_holdsTable (approaches : point.Approaches env call) :
    ¬ point.HoldsTable := by
  cases point <;> first | exact fun holds => holds | exact False.elim approaches

/-- An allowed step before the locked block leaves the call answered. -/
private theorem Answered.step (answered : Answered env config state caller call point)
    (approaches : point.Approaches env call) {next : CallPoint}
    (stepped : (machine env config).step state (.advance (.user user)) = some after)
    (allowed : OwnSteps caller state (.advance (.user user)))
    (notHolds : ¬ state.HoldsTable (.user user)) (alongside : Alongside state after user)
    (alive : after.fault = none) (inCall : after.users caller = .call call next)
    (history : state.history ⊆ after.history)
    (rest : Answered env config after caller call next →
      Completes env config after caller) : Completes env config state caller := by
  obtain ⟨result, stored⟩ := answered.stored
  have continued : Answered env config after caller call next :=
    { reachable := answered.reachable.next stepped
      alive, inCall
      stored := ⟨result, history stored⟩
      notHeldUp := fun heldUp => answered.notHeldUp
        (alongside.heldUp answered.consistent notHolds answered.inCall approaches heldUp) }
  obtain ⟨final, leads, idle⟩ := rest continued
  exact ⟨final, (Machine.Leads.step allowed stepped).trans leads, idle⟩

/-- A step of the caller itself. -/
private theorem Answered.own (answered : Answered env config state caller call point)
    (approaches : point.Approaches env call) {next : CallPoint}
    (effect : CallEffect env config state caller call point after)
    (objects : ∀ id, after.object id = state.object id)
    (table : after.reqEventsMtx = state.reqEventsMtx) (alive : after.fault = none)
    (inCall : after.users caller = .call call next) (history : state.history ⊆ after.history)
    (rest : Answered env config after caller call next →
      Completes env config after caller) : Completes env config state caller := by
  have stepped := advance_of_effect answered.alive answered.inCall effect
  have allowed : OwnSteps caller state (.advance (.user caller)) := Or.inl rfl
  have alongside : Alongside state after caller :=
    { users := fun _ different => effect.users_of_ne different
      objects, table
      loop := effect.loop_eq }
  apply answered.step approaches stepped allowed ?_ alongside alive inCall history rest
  simp only [State.HoldsTable, answered.inCall]
  exact approaches.not_holdsTable

private theorem completes_of_sending {body : Str}
    (answered : Answered env config state caller call (.sending body)) :
    Completes env config state caller := by
  refine answered.own trivial CallEffect.send (fun _ => rfl) rfl answered.alive
    (Function.update_self ..) (List.subset_append_left ..) fun later => ?_
  obtain ⟨object, found, done⟩ := later.done trivial trivial
  exact completes_of_await later.reachable later.alive later.inCall found done later.notHeldUp

private theorem completes_of_send_free {body : Str}
    (answered : Answered env config state caller call (.send body))
    (free : state.sendMtx = none) : Completes env config state caller :=
  answered.own trivial (CallEffect.lockSend free) (fun _ => rfl) rfl answered.alive
    (Function.update_self ..) (List.Subset.refl _) completes_of_sending

/-- The holder of `send_mtx` gives it back with its next step. -/
private theorem completes_of_send {body : Str}
    (answered : Answered env config state caller call (.send body)) :
    Completes env config state caller := by
  cases held : state.sendMtx with
  | none => exact completes_of_send_free answered held
  | some thread =>
      obtain ⟨sender, rfl, sending⟩ := sendTaken_of_reachable answered.reachable thread held
      have allowed : OwnSteps caller state (.advance (.user sender)) := Or.inr (Or.inr (Or.inl held))
      have isOther : caller ≠ sender := by
        rintro rfl
        rw [answered.inCall] at sending
        exact sending
      cases activity : state.users sender with
      | idle =>
          rw [activity] at sending
          exact False.elim sending
      | call other point =>
          rw [activity] at sending
          cases point with
          | sending otherBody =>
              have effect := (CallEffect.send :
                CallEffect env config state sender other (.sending otherBody) _)
              have alongside : Alongside state _ sender :=
                { users := fun _ different => effect.users_of_ne different
                  objects := fun _ => rfl
                  loop := rfl
                  table := rfl }
              refine answered.step trivial (advance_of_effect answered.alive activity effect)
                allowed ?_ alongside answered.alive ?_ (List.subset_append_left ..)
                fun (later : Answered env config _ caller call (.send body)) =>
                  completes_of_send_free later rfl
              · simp [State.HoldsTable, activity, CallPoint.HoldsTable]
              · exact (effect.users_of_ne isOther).trans answered.inCall
          | _ => exact False.elim sending
      | publish routingKey data point =>
          rw [activity] at sending
          cases point with
          | sending =>
              have stepped : (machine env config).step state (.advance (.user sender)) = some
                  { state.put sender .idle with
                    sendMtx := none
                    pubMtx := none
                    commands := state.commands ++ [eventCommand config routingKey data] } := by
                simp [machine, step, answered.alive, activity, publishStep]
              refine answered.step trivial stepped allowed ?_ ?_ answered.alive ?_
                (List.Subset.refl _) fun (later : Answered env config _ caller call (.send body)) =>
                  completes_of_send_free later rfl
              · simp [State.HoldsTable, activity]
              · exact
                  { users := fun _ different => Function.update_of_ne different ..
                    objects := fun _ => rfl
                    loop := rfl
                    table := rfl }
              · exact (Function.update_of_ne isOther ..).trans answered.inCall
          | _ => exact False.elim sending

/-- Encoding ends the call or leads to sending. -/
private theorem completes_of_encode
    (answered : Answered env config state caller call .encode) :
    Completes env config state caller := by
  cases encoded : rpcEncodeReq env call.id call.meth call.args with
  | ok body =>
      exact answered.own ⟨body, encoded⟩ (CallEffect.encode encoded) (fun _ => rfl) rfl
        answered.alive (Function.update_self ..) (List.Subset.refl _) completes_of_send
  | error fault =>
      have stepped := advance_of_effect answered.alive answered.inCall
        (CallEffect.encodeFault encoded : CallEffect env config state caller call .encode _)
      have allowed : OwnSteps caller state (.advance (.user caller)) := Or.inl rfl
      exact ⟨_, Machine.Leads.step allowed stepped, Function.update_self ..⟩

/-- A call whose reply is stored completes unless it is held up. -/
private theorem completes_of_answered (answered : Answered env config state caller call point) :
    Completes env config state caller := by
  have ⟨reachable, alive, inCall, ⟨result, stored⟩, notHeldUp⟩ := answered
  have registered : ¬ point.Unregistered := by
    intro unregistered
    have untouched := answered.consistent.fresh call.id
      (Or.inr ⟨caller, call, point, inCall, unregistered, rfl⟩)
    exact untouched.history _ stored rfl
  have notAwaits : ¬ AwaitsReply state caller := by
    rintro ⟨other, otherPoint, otherObject, otherInCall, needs, otherFound, pending, _⟩
    have same := inCall.symm.trans otherInCall
    cases same
    obtain ⟨object, found, done⟩ := answered.done needs.registered needs.beforeTake
    have same := found.symm.trans otherFound
    cases same
    rw [done] at pending
    cases pending
  cases point with
  | register => exact absurd trivial registered
  | registering => exact absurd trivial registered
  | encode => exact completes_of_encode answered
  | send body => exact completes_of_send answered
  | sending body => exact completes_of_sending answered
  | await =>
      obtain ⟨object, found, done⟩ := answered.done trivial trivial
      exact completes_of_await reachable alive inCall found done notHeldUp
  | lookup => exact completes_of_holds reachable alive inCall trivial trivial notAwaits
  | get point => exact completes_of_holds reachable alive inCall trivial trivial notAwaits
  | erase ret => exact completes_of_holds reachable alive inCall trivial trivial notAwaits
  | finish ret => exact completes_of_past alive (Or.inr ⟨ret, inCall⟩)

/-- Nothing runs after the process has died. -/
private theorem not_completes_of_fault (dead : state.fault ≠ none)
    (inCall : state.users caller = .call call point) : ¬ Completes env config state caller := by
  rintro ⟨final, leads, idle⟩
  have still : final = state := by
    apply leads.invariant (fun later => later = state) rfl
    intro between after action same _ stepped
    subst same
    exact absurd (step_effect stepped).1 dead
  rw [still, inCall] at idle
  cases idle

/-- A call whose reply is stored can complete by itself exactly when the
process has not died and the call is not held up. -/
theorem completes_iff (reachable : (machine env config).Reachable state)
    (inCall : state.users caller = .call call point)
    {result : Str × Str} (stored : .stored call.id result ∈ state.history) :
    Completes env config state caller ↔ state.fault = none ∧ ¬ HeldUp env state caller := by
  constructor
  · intro completes
    constructor
    · by_contra dead
      exact not_completes_of_fault dead inCall completes
    · exact fun heldUp => not_completes_of_heldUp reachable heldUp completes
  · rintro ⟨alive, notHeldUp⟩
    exact completes_of_answered ⟨reachable, alive, inCall, ⟨result, stored⟩, notHeldUp⟩

def Event.stores (id : Str) : Event → Bool
  | .stored other _ => decide (other = id)
  | _ => false

/-- A test for a stored reply. -/
def replyStored (state : State) (caller : Nat) : Bool :=
  match state.users caller with
  | .call call _ => state.history.any (Event.stores call.id)
  | _ => false

theorem replyStored_sound (passed : replyStored state caller = true) :
    ∃ call point result, state.users caller = .call call point ∧
      .stored call.id result ∈ state.history := by
  unfold replyStored at passed
  cases activity : state.users caller with
  | call call point =>
      simp only [activity] at passed
      obtain ⟨event, member, same⟩ := List.any_eq_true.mp passed
      cases event with
      | stored id result =>
          cases of_decide_eq_true same
          exact ⟨call, point, result, rfl, member⟩
      | _ => cases same
  | _ => simp [activity] at passed

/-- A call whose reply was stored while it was blocked. -/
def storedWhileBlocked : List Action :=
  sentCall ++
    [.deliver ⟨ascii "corr-1", ascii "[1,\"corr-1\",\"\",3]"⟩, .advance .loop, .advance .loop,
      .advance .loop, .store (some (.user 0))]

theorem completes_iff_storedWhileBlocked :
    ∃ state, (machine ⟨codec, false⟩ exampleConfig).Reachable state ∧
      replyStored state 0 = true ∧
      (Completes ⟨codec, false⟩ exampleConfig state 0 ↔
        state.fault = none ∧ ¬ HeldUp ⟨codec, false⟩ state 0) := by
  have allowed : ∀ state : State, ∀ action ∈ storedWhileBlocked, Machine.always state action :=
    fun _ _ _ => trivial
  have reached : (((machine ⟨codec, false⟩ exampleConfig).exec storedWhileBlocked
      (machine ⟨codec, false⟩ exampleConfig).init).any fun state => replyStored state 0) = true := by
    decide +kernel
  obtain ⟨state, run, passed⟩ := Machine.Run.of_exec_any allowed reached
  obtain ⟨call, point, result, inCall, stored⟩ := replyStored_sound passed
  exact ⟨state, run.reachable, passed, completes_iff run.reachable inCall stored⟩

/-- A test for a call that waits for the mutex of a blocked call. -/
def heldUp (state : State) (caller : Nat) : Bool :=
  match state.users caller, state.reqEventsMtx, state.loop with
  | .call _ .await, some (.user holder), .idle =>
      match state.users holder with
      | .call call (.get .blocked) =>
          (state.object call.id).any fun object => !object.done
      | _ => false
  | _, _, _ => false

theorem heldUp_sound (passed : heldUp state caller = true) : HeldUp env state caller := by
  unfold heldUp at passed
  split at passed
  · rename_i call holder inCall taken idle
    split at passed
    · rename_i other holderInCall
      obtain ⟨object, found, pending⟩ := Option.any_eq_true _ _ |>.mp passed
      refine ⟨call, .await, holder, inCall, trivial, taken, other, .get .blocked, object,
        holderInCall, trivial, found, by simpa using pending, ?_⟩
      rw [idle]
      exact fun storing => storing
    · cases passed
  · cases passed

/-- The first thread blocks in `get`, and the reply to the second thread
arrives. -/
def storedBehindBlocked : List Action :=
  .call 1 (ascii "q") (ascii "f") [] (ascii "2") ::
    List.replicate 5 (.advance (.user 1)) ++ sentCall ++
    [.deliver ⟨ascii "corr-2", ascii "[1,\"corr-2\",\"\",3]"⟩, .advance .loop, .advance .loop,
      .advance .loop, .store none]

/-- A call whose reply is stored waits for the reply to another call. -/
theorem not_completes_storedBehindBlocked :
    ¬ ∀ (state : State) (caller : Nat) (call : Call) (point : CallPoint) (result : Str × Str),
      (machine ⟨codec, false⟩ exampleConfig).Reachable state →
        state.users caller = .call call point → .stored call.id result ∈ state.history →
          Completes ⟨codec, false⟩ exampleConfig state caller := by
  intro completes
  have allowed : ∀ state : State, ∀ action ∈ storedBehindBlocked, Machine.always state action :=
    fun _ _ _ => trivial
  have reached : (((machine ⟨codec, false⟩ exampleConfig).exec storedBehindBlocked
      (machine ⟨codec, false⟩ exampleConfig).init).any fun state =>
        replyStored state 1 && heldUp state 1) = true := by
    decide +kernel
  obtain ⟨state, run, passed⟩ := Machine.Run.of_exec_any allowed reached
  obtain ⟨replied, blocked⟩ := Bool.and_eq_true_iff.mp passed
  obtain ⟨call, point, result, inCall, stored⟩ := replyStored_sound replied
  exact not_completes_of_heldUp run.reachable (heldUp_sound blocked)
    (completes state 1 call point result run.reachable inCall stored)

end Client

end Ccmqsrv
