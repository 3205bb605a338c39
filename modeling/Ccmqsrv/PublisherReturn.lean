import Ccmqsrv.ClientCommands
import Ccmqsrv.ReplyReturn

/-!
# The way of a publisher to its event

A publisher needs `pub_mtx` and `send_mtx`.  Whoever holds one of them gives it
back after a few steps of its own, so a publisher comes to its wait or to the
publication, and once it was notified from its wait to the publication too.
-/

namespace Ccmqsrv

open Foundations

namespace Client

/-- Steps of the user threads. -/
def ThreadsGo (_ : State) : Action → Prop
  | .advance (.user _) => True
  | _ => False

/-- Steps of the threads and of the event loop.  The wait of the publisher ends
by its notification only. -/
def Proceeds (user : Nat) (state : State) : Action → Prop
  | .advance _ => True
  | .store _ => True
  | .wakePublisher other => other = user ∧ .user user ∉ state.pubCv
  | _ => False

/-- The client is alive, and its event loop finds what it needs. -/
structure Well (env : Env) (config : Config) (state : State) : Prop where
  reachable : (machine env config).Reachable state
  attentive : Attentive env state

variable {env : Env} {config : Config} {state after : State} {action : Action} {user mover : Nat}
  {routingKey data : Str}

theorem proceeds_of_threadsGo (goes : ThreadsGo state action) : Proceeds user state action := by
  cases action with
  | advance thread => trivial
  | _ => exact False.elim goes

theorem Well.accounted (well : Well env config state) : Accounted state := by
  refine well.reachable.invariant Accounted Accounted.init ?_
  intro _ _ _ _ accounted stepped
  exact accounted.next (step_effect stepped).2

theorem Well.next (well : Well env config state)
    (stepped : (machine env config).step state action = some after)
    (atRest : RepliesAtRest env state action) : Well env config after :=
  ⟨well.reachable.next stepped,
    well.attentive.next (consistent_of_reachable well.reachable) atRest (step_effect stepped).2⟩

/-- Neither a delivery nor a step of a user thread. -/
private def Quiet : Action → Prop
  | .deliver _ => False
  | .advance (.user _) => False
  | _ => True

private theorem Well.quiet (well : Well env config state)
    (stepped : (machine env config).step state action = some after) (isQuiet : Quiet action) :
    Well env config after := by
  refine well.next stepped ⟨?_, ?_⟩
  · intro response isDelivery
    subst isDelivery
    exact False.elim isQuiet
  · intro other call ret isThread
    subst isThread
    exact False.elim isQuiet

/-- Only a thread that erases an entry can harm the event loop. -/
private theorem Well.advance (well : Well env config state)
    (stepped : (machine env config).step state (.advance (.user mover)) = some after)
    (notErasing : ∀ call ret, state.users mover ≠ .call call (.erase ret)) :
    Well env config after := by
  refine well.next stepped ⟨?_, ?_⟩
  · intro response impossible
    cases impossible
  · intro other call ret same erasing
    cases same
    exact absurd erasing (notErasing call ret)

private theorem advance_of_publishStep {point : PublishPoint} (alive : state.fault = none)
    (publishing : state.users user = .publish routingKey data point)
    (stepped : publishStep config state user routingKey data point = some after) :
    (machine env config).step state (.advance (.user user)) = some after := by
  simp [machine, step, alive, publishing, stepped]

/-- A publisher goes on. -/
private theorem Well.publish {point : PublishPoint} (well : Well env config state)
    (publishing : state.users user = .publish routingKey data point)
    (stepped : publishStep config state user routingKey data point = some after) :
    (machine env config).Leads ThreadsGo state after ∧ Well env config after := by
  have advanced : (machine env config).step state (.advance (.user user)) = some after :=
    advance_of_publishStep well.attentive.alive publishing stepped
  have allowed : ThreadsGo state (.advance (.user user)) := trivial
  refine ⟨Machine.Leads.step allowed advanced, well.advance advanced ?_⟩
  intro call ret erasing
  rw [publishing] at erasing
  cases erasing

/-- A caller that does not erase its entry goes on. -/
private theorem Well.call {call : Call} {point : CallPoint} (well : Well env config state)
    (inCall : state.users user = .call call point)
    (effect : CallEffect env config state user call point after)
    (notErasing : ∀ ret, point ≠ .erase ret) :
    (machine env config).Leads ThreadsGo state after ∧ Well env config after := by
  have advanced := advance_of_effect well.attentive.alive inCall effect
  have allowed : ThreadsGo state (.advance (.user user)) := trivial
  refine ⟨Machine.Leads.step allowed advanced, well.advance advanced ?_⟩
  intro other ret erasing
  rw [inCall] at erasing
  cases erasing
  exact notErasing ret rfl

/-- The publisher tests the flag, and goes on to its publication or to its
wait. -/
private theorem Well.tests (well : Well env config state)
    (publishing : state.users mover = .publish routingKey data .locked) :
    ∃ point, (point = .send ∨ point = .wait) ∧
      (machine env config).Leads ThreadsGo state
        (state.put mover (.publish routingKey data point)) ∧
      Well env config (state.put mover (.publish routingKey data point)) := by
  cases inited : state.pubQueueInited with
  | true =>
      have stepped : publishStep config state mover routingKey data .locked =
          some (state.put mover (.publish routingKey data .send)) := by
        simp [publishStep, inited]
      exact ⟨.send, Or.inl rfl, well.publish publishing stepped⟩
  | false =>
      have stepped : publishStep config state mover routingKey data .locked =
          some (state.put mover (.publish routingKey data .wait)) := by
        simp [publishStep, inited]
      exact ⟨.wait, Or.inr rfl, well.publish publishing stepped⟩

section Mutexes

/-- Whoever holds `send_mtx` sends its message and gives it back. -/
theorem Well.freeSend (well : Well env config state) :
    ∃ later, (machine env config).Leads ThreadsGo state later ∧ Well env config later ∧
      later.sendMtx = none ∧
        ∀ other, ¬ (state.users other).Holds .send → later.users other = state.users other := by
  cases owned : state.sendMtx with
  | none => exact ⟨state, .refl, well, owned, fun _ _ => rfl⟩
  | some owner =>
      have holds : state.Holds owner .send := well.accounted .send owner owned
      cases owner with
      | loop => exact False.elim holds
      | user mover =>
          have holds : (state.users mover).Holds .send := holds
          have others : ∀ {activity : Activity} {other : Nat},
              ¬ (state.users other).Holds .send →
                Function.update state.users mover activity other = state.users other := by
            intro activity other notHolding
            refine Function.update_of_ne ?_ _ _
            intro same
            subst same
            exact notHolding holds
          cases activity : state.users mover with
          | idle =>
              rw [activity] at holds
              exact False.elim holds
          | call call point =>
              rw [activity] at holds
              cases point with
              | sending body =>
                  obtain ⟨leads, wellAfter⟩ := well.call activity CallEffect.send nofun
                  exact ⟨_, leads, wellAfter, rfl, fun _ => others⟩
              | _ => exact False.elim holds
          | publish routingKey data point =>
              rw [activity] at holds
              cases point with
              | sending =>
                  obtain ⟨leads, wellAfter⟩ := well.publish activity rfl
                  exact ⟨_, leads, wellAfter, rfl, fun _ => others⟩
              | _ => exact False.elim holds

/-- The publisher gives `pub_mtx` back, and the threads that do not hold
`send_mtx` stay where they are. -/
def GivesBack (env : Env) (config : Config) (mover : Nat) (state : State) : Prop :=
  ∃ later, (machine env config).Leads ThreadsGo state later ∧ Well env config later ∧
    later.pubMtx = none ∧ ∀ other, other ≠ mover → ¬ (state.users other).Holds .send →
      later.users other = state.users other

/-- After a step of the publisher the others are where they were. -/
private theorem GivesBack.of_step {activity : Activity}
    (leads : (machine env config).Leads ThreadsGo state after)
    (users : after.users = Function.update state.users mover activity)
    (gives : GivesBack env config mover after) : GivesBack env config mover state := by
  obtain ⟨later, toLater, well, free, stays⟩ := gives
  refine ⟨later, leads.trans toLater, well, free, ?_⟩
  intro other different notHolding
  have same : after.users other = state.users other := by
    rw [users, Function.update_of_ne different]
  rw [stays other different (same ▸ notHolding), same]

private theorem Well.givesBack_sending (well : Well env config state)
    (publishing : state.users mover = .publish routingKey data .sending) :
    GivesBack env config mover state := by
  obtain ⟨leads, wellAfter⟩ := well.publish publishing rfl
  exact ⟨_, leads, wellAfter, rfl, fun _ different _ => Function.update_of_ne different _ _⟩

private theorem Well.givesBack_send (well : Well env config state)
    (publishing : state.users mover = .publish routingKey data .send) :
    GivesBack env config mover state := by
  obtain ⟨between, toBetween, wellBetween, free, stays⟩ := well.freeSend
  have here : between.users mover = .publish routingKey data .send := by
    rw [stays mover (by rw [publishing]; exact id), publishing]
  have stepped : publishStep config between mover routingKey data .send = some
      { between.put mover (.publish routingKey data .sending) with
        sendMtx := some (.user mover) } := by
    simp [publishStep, Mutex.lock, free]
  obtain ⟨leads, wellAfter⟩ := wellBetween.publish here stepped
  obtain ⟨later, toLater, wellLater, freeLater, staysLater⟩ :=
    (wellAfter.givesBack_sending (Function.update_self ..)).of_step leads rfl
  refine ⟨later, toBetween.trans toLater, wellLater, freeLater, ?_⟩
  intro other different notHolding
  have same := stays other notHolding
  rw [staysLater other different (same ▸ notHolding), same]

private theorem Well.givesBack_wait (well : Well env config state)
    (publishing : state.users mover = .publish routingKey data .wait) :
    GivesBack env config mover state := by
  obtain ⟨leads, wellAfter⟩ := well.publish publishing rfl
  exact ⟨_, leads, wellAfter, rfl, fun _ different _ => Function.update_of_ne different _ _⟩

private theorem Well.givesBack_locked (well : Well env config state)
    (publishing : state.users mover = .publish routingKey data .locked) :
    GivesBack env config mover state := by
  obtain ⟨point, rfl | rfl, leads, wellAfter⟩ := well.tests publishing
  · exact (wellAfter.givesBack_send (Function.update_self ..)).of_step leads rfl
  · exact (wellAfter.givesBack_wait (Function.update_self ..)).of_step leads rfl

/-- The publisher that holds `pub_mtx` comes to give it back. -/
theorem Well.freePub (well : Well env config state) :
    ∃ later, (machine env config).Leads ThreadsGo state later ∧ Well env config later ∧
      later.pubMtx = none ∧ ∀ other, ¬ (state.users other).Holds .pub →
        ¬ (state.users other).Holds .send → later.users other = state.users other := by
  cases owned : state.pubMtx with
  | none => exact ⟨state, .refl, well, owned, fun _ _ _ => rfl⟩
  | some owner =>
      have holds : state.Holds owner .pub := well.accounted .pub owner owned
      cases owner with
      | loop => exact False.elim holds
      | user mover =>
          have holds : (state.users mover).Holds .pub := holds
          have gives : GivesBack env config mover state := by
            cases activity : state.users mover with
            | idle =>
                rw [activity] at holds
                exact False.elim holds
            | call call point =>
                rw [activity] at holds
                exact False.elim holds
            | publish routingKey data point =>
                rw [activity] at holds
                cases point with
                | locked => exact well.givesBack_locked activity
                | wait => exact well.givesBack_wait activity
                | send => exact well.givesBack_send activity
                | sending => exact well.givesBack_sending activity
                | _ => exact False.elim holds
          obtain ⟨later, leads, wellLater, free, stays⟩ := gives
          refine ⟨later, leads, wellLater, free, ?_⟩
          intro other notPub notSend
          refine stays other ?_ notSend
          intro same
          exact notPub (same ▸ holds)

end Mutexes

section Publication

/-- The publisher can publish its event. -/
def CanPublish (env : Env) (config : Config) (user : Nat) (routingKey data : Str)
    (state : State) : Prop :=
  ∃ final before, (machine env config).Leads (Proceeds user) state final ∧
    final.users user = .idle ∧ state.commands <+: before ∧
      final.commands = before ++ [eventCommand config routingKey data]

/-- The publisher comes to its publication, or to its wait. -/
def ComesToWait (env : Env) (config : Config) (user : Nat) (routingKey data : Str)
    (state : State) : Prop :=
  ∃ later, (machine env config).Leads ThreadsGo state later ∧ Well env config later ∧
    (later.users user = .publish routingKey data .send ∨
      later.users user = .publish routingKey data .blocked)

private theorem CanPublish.of_leads (leads : (machine env config).Leads (Proceeds user) state after)
    (publishes : CanPublish env config user routingKey data after) :
    CanPublish env config user routingKey data state := by
  obtain ⟨final, before, toFinal, idle, grows, published⟩ := publishes
  have earlier : state.commands <+: after.commands := by
    refine leads.invariant (fun between => state.commands <+: between.commands)
      (List.prefix_refl _) ?_
    intro between next action grown _ stepped
    exact grown.trans (commands_grows stepped)
  exact ⟨final, before, leads.trans toFinal, idle, earlier.trans grows, published⟩

private theorem ComesToWait.of_leads (leads : (machine env config).Leads ThreadsGo state after)
    (comes : ComesToWait env config user routingKey data after) :
    ComesToWait env config user routingKey data state := by
  obtain ⟨later, toLater, rest⟩ := comes
  exact ⟨later, leads.trans toLater, rest⟩

private theorem Well.publishes_sending (well : Well env config state)
    (publishing : state.users user = .publish routingKey data .sending) :
    CanPublish env config user routingKey data state := by
  obtain ⟨leads, _⟩ := well.publish publishing rfl
  exact ⟨_, _, leads.weaken proceeds_of_threadsGo, Function.update_self .., List.prefix_refl _, rfl⟩

theorem Well.publishes_send (well : Well env config state)
    (publishing : state.users user = .publish routingKey data .send) :
    CanPublish env config user routingKey data state := by
  obtain ⟨between, toBetween, wellBetween, free, stays⟩ := well.freeSend
  have here : between.users user = .publish routingKey data .send := by
    rw [stays user (by rw [publishing]; exact id), publishing]
  have stepped : publishStep config between user routingKey data .send = some
      { between.put user (.publish routingKey data .sending) with
        sendMtx := some (.user user) } := by
    simp [publishStep, Mutex.lock, free]
  obtain ⟨leads, wellAfter⟩ := wellBetween.publish here stepped
  exact CanPublish.of_leads ((toBetween.trans leads).weaken proceeds_of_threadsGo)
    (wellAfter.publishes_sending (Function.update_self ..))

private theorem Well.publishes_woken (well : Well env config state)
    (publishing : state.users user = .publish routingKey data .woken) :
    CanPublish env config user routingKey data state := by
  obtain ⟨between, toBetween, wellBetween, free, stays⟩ := well.freePub
  have here : between.users user = .publish routingKey data .woken := by
    rw [stays user (by rw [publishing]; exact id) (by rw [publishing]; exact id), publishing]
  have stepped : publishStep config between user routingKey data .woken = some
      { between.put user (.publish routingKey data .send) with pubMtx := some (.user user) } := by
    simp [publishStep, Mutex.lock, free]
  obtain ⟨leads, wellAfter⟩ := wellBetween.publish here stepped
  exact CanPublish.of_leads ((toBetween.trans leads).weaken proceeds_of_threadsGo)
    (wellAfter.publishes_send (Function.update_self ..))

/-- A publisher that was notified leaves its wait. -/
theorem Well.publishes_notified (well : Well env config state)
    (publishing : state.users user = .publish routingKey data .blocked)
    (notified : .user user ∉ state.pubCv) : CanPublish env config user routingKey data state := by
  have stepped : (machine env config).step state (.wakePublisher user) = some
      { state.put user (.publish routingKey data .woken) with
        pubCv := state.pubCv.leave (.user user) } := by
    simp [machine, step, well.attentive.alive, publishing]
  have wellAfter : Well env config
      { state.put user (.publish routingKey data .woken) with
        pubCv := state.pubCv.leave (.user user) } := well.quiet stepped trivial
  have allowed : Proceeds user state (.wakePublisher user) := ⟨rfl, notified⟩
  exact CanPublish.of_leads (Machine.Leads.step allowed stepped)
    (wellAfter.publishes_woken (Function.update_self ..))

private theorem Well.comesToWait_wait (well : Well env config state)
    (publishing : state.users user = .publish routingKey data .wait) :
    ComesToWait env config user routingKey data state := by
  obtain ⟨leads, wellAfter⟩ := well.publish publishing rfl
  exact ⟨_, leads, wellAfter, Or.inr (Function.update_self ..)⟩

private theorem Well.comesToWait_locked (well : Well env config state)
    (publishing : state.users user = .publish routingKey data .locked) :
    ComesToWait env config user routingKey data state := by
  obtain ⟨point, rfl | rfl, leads, wellAfter⟩ := well.tests publishing
  · exact ⟨_, leads, wellAfter, Or.inl (Function.update_self ..)⟩
  · exact ComesToWait.of_leads leads (wellAfter.comesToWait_wait (Function.update_self ..))

private theorem Well.comesToWait_lock (well : Well env config state)
    (publishing : state.users user = .publish routingKey data .lock) :
    ComesToWait env config user routingKey data state := by
  obtain ⟨between, toBetween, wellBetween, free, stays⟩ := well.freePub
  have here : between.users user = .publish routingKey data .lock := by
    rw [stays user (by rw [publishing]; exact id) (by rw [publishing]; exact id), publishing]
  have stepped : publishStep config between user routingKey data .lock = some
      { between.put user (.publish routingKey data .locked) with
        pubMtx := some (.user user) } := by
    simp [publishStep, Mutex.lock, free]
  obtain ⟨leads, wellAfter⟩ := wellBetween.publish here stepped
  exact ComesToWait.of_leads (toBetween.trans leads)
    (wellAfter.comesToWait_locked (Function.update_self ..))

private theorem Well.comesToWait_insert (well : Well env config state)
    (publishing : state.users user = .publish routingKey data .insert) :
    ComesToWait env config user routingKey data state := by
  obtain ⟨leads, wellAfter⟩ := well.publish publishing rfl
  exact ComesToWait.of_leads leads (wellAfter.comesToWait_lock (Function.update_self ..))

private theorem Well.comesToWait_bind (well : Well env config state)
    (publishing : state.users user = .publish routingKey data .bind) :
    ComesToWait env config user routingKey data state := by
  obtain ⟨leads, wellAfter⟩ := well.publish publishing rfl
  exact ComesToWait.of_leads leads (wellAfter.comesToWait_insert (Function.update_self ..))

private theorem Well.comesToWait_declare (well : Well env config state)
    (publishing : state.users user = .publish routingKey data .declare) :
    ComesToWait env config user routingKey data state := by
  obtain ⟨leads, wellAfter⟩ := well.publish publishing rfl
  exact ComesToWait.of_leads leads (wellAfter.comesToWait_bind (Function.update_self ..))

private theorem Well.comesToWait_find (well : Well env config state)
    (publishing : state.users user = .publish routingKey data .find) :
    ComesToWait env config user routingKey data state := by
  by_cases known : routingKey ∈ state.routingKeys
  · have stepped : publishStep config state user routingKey data .find =
        some (state.put user (.publish routingKey data .lock)) := by
      simp [publishStep, known]
    obtain ⟨leads, wellAfter⟩ := well.publish publishing stepped
    exact ComesToWait.of_leads leads (wellAfter.comesToWait_lock (Function.update_self ..))
  · have stepped : publishStep config state user routingKey data .find =
        some (state.put user (.publish routingKey data .declare)) := by
      simp [publishStep, known]
    obtain ⟨leads, wellAfter⟩ := well.publish publishing stepped
    exact ComesToWait.of_leads leads (wellAfter.comesToWait_declare (Function.update_self ..))

/-- A publisher that was not notified comes to its wait, unless it can publish. -/
theorem Well.publishes_or_waits {point : PublishPoint} (well : Well env config state)
    (publishing : state.users user = .publish routingKey data point) :
    CanPublish env config user routingKey data state ∨
      ∃ later, (machine env config).Leads ThreadsGo state later ∧ Well env config later ∧
        later.users user = .publish routingKey data .blocked := by
  have of_comes : ComesToWait env config user routingKey data state →
      CanPublish env config user routingKey data state ∨
        ∃ later, (machine env config).Leads ThreadsGo state later ∧ Well env config later ∧
          later.users user = .publish routingKey data .blocked := by
    intro comes
    obtain ⟨later, leads, wellLater, atSend | blocked⟩ := comes
    · exact Or.inl (CanPublish.of_leads (leads.weaken proceeds_of_threadsGo)
        (wellLater.publishes_send atSend))
    · exact Or.inr ⟨later, leads, wellLater, blocked⟩
  cases point with
  | find => exact of_comes (well.comesToWait_find publishing)
  | declare => exact of_comes (well.comesToWait_declare publishing)
  | bind => exact of_comes (well.comesToWait_bind publishing)
  | insert => exact of_comes (well.comesToWait_insert publishing)
  | lock => exact of_comes (well.comesToWait_lock publishing)
  | locked => exact of_comes (well.comesToWait_locked publishing)
  | wait => exact of_comes (well.comesToWait_wait publishing)
  | blocked => exact Or.inr ⟨state, .refl, well, publishing⟩
  | woken => exact Or.inl (well.publishes_woken publishing)
  | send => exact Or.inl (well.publishes_send publishing)
  | sending => exact Or.inl (well.publishes_sending publishing)

end Publication

section Loop

variable {id : Str} {result : Str × Str} {point : PublishPoint}

/-- The event loop comes to rest while the publisher stays where it is. -/
def ComesToRest (env : Env) (config : Config) (user : Nat) (state : State) : Prop :=
  ∃ later, (machine env config).Leads (Proceeds user) state later ∧ Well env config later ∧
    later.loop = .idle ∧ later.users user = state.users user ∧
      later.pendingBinds = state.pendingBinds ∧ later.commands = state.commands

private theorem ComesToRest.of_leads (leads : (machine env config).Leads (Proceeds user) state after)
    (users : after.users user = state.users user) (binds : after.pendingBinds = state.pendingBinds)
    (commands : after.commands = state.commands) (rests : ComesToRest env config user after) :
    ComesToRest env config user state := by
  obtain ⟨later, toLater, well, idle, usersLater, bindsLater, commandsLater⟩ := rests
  exact ⟨later, leads.trans toLater, well, idle, usersLater.trans users, bindsLater.trans binds,
    commandsLater.trans commands⟩

/-- A step of the event loop. -/
private theorem Well.loop (well : Well env config state)
    (stepped : (machine env config).step state (.advance .loop) = some after) :
    (machine env config).Leads (Proceeds user) state after ∧ Well env config after := by
  have allowed : Proceeds user state (.advance .loop) := trivial
  exact ⟨Machine.Leads.step allowed stepped, well.quiet stepped trivial⟩

private theorem Well.rests_locked (well : Well env config state)
    (setting : state.loop = .set id result .locked) : ComesToRest env config user state := by
  obtain ⟨object, found⟩ := well.attentive.handled id (by rw [setting]; rfl)
  obtain ⟨notified, condVar, stepped⟩ := loop_stores env config well.attentive.alive setting found
  have allowed : Proceeds user state (.store notified) := trivial
  exact ⟨_, Machine.Leads.step allowed stepped, well.quiet stepped trivial, rfl, rfl, rfl, rfl⟩

/-- The caller that holds the mutex of the result gives it back in its next
step. -/
private theorem Well.freeResult (well : Well env config state)
    (publishing : state.users user = .publish routingKey data point)
    (setting : state.loop = .set id result .enter) :
    ∃ later object, (machine env config).Leads ThreadsGo state later ∧ Well env config later ∧
      later.loop = state.loop ∧ later.object id = some object ∧ object.mutex = none ∧
        later.users user = state.users user ∧ later.pendingBinds = state.pendingBinds ∧
          later.commands = state.commands := by
  obtain ⟨object, found⟩ := well.attentive.handled id (by rw [setting]; rfl)
  cases owned : object.mutex with
  | none => exact ⟨state, object, .refl, well, rfl, found, owned, rfl, rfl, rfl⟩
  | some owner =>
      have isOwner : state.owner (.result id) = some owner := by
        rw [State.owner_result, found]
        exact owned
      have holds : state.Holds owner (.result id) := well.accounted (.result id) owner isOwner
      cases owner with
      | loop =>
          have storing : state.loop.Storing id := holds
          rw [setting] at storing
          exact False.elim storing
      | user mover =>
          have holds : (state.users mover).Holds (.result id) := holds
          cases activity : state.users mover with
          | idle =>
              rw [activity] at holds
              exact False.elim holds
          | publish routingKey data point =>
              rw [activity] at holds
              cases point <;> exact False.elim holds
          | call call point =>
              rw [activity] at holds
              obtain ⟨rfl, owns⟩ := holds
              cases point with
              | get point =>
                  obtain ⟨moved, next, advances, free⟩ := exists_release owns
                  obtain ⟨leads, wellAfter⟩ := well.call activity (.get found advances) nofun
                  have different : user ≠ mover := by
                    intro same
                    rw [same, activity] at publishing
                    cases publishing
                  exact ⟨_, moved, leads, wellAfter, rfl,
                    State.object_setObject_self state call.id moved, free,
                    Function.update_of_ne different _ _, rfl, rfl⟩
              | _ => exact False.elim owns

private theorem Well.rests_enter (well : Well env config state)
    (publishing : state.users user = .publish routingKey data point)
    (setting : state.loop = .set id result .enter) : ComesToRest env config user state := by
  obtain ⟨later, object, leads, wellLater, loop, found, free, users, binds, commands⟩ :=
    well.freeResult publishing setting
  have stepped := loop_locks env config wellLater.attentive.alive (loop.trans setting) found free
  obtain ⟨locks, wellLocked⟩ := wellLater.loop stepped
  exact ((wellLocked.rests_locked rfl).of_leads locks rfl rfl rfl).of_leads
    (leads.weaken proceeds_of_threadsGo) users binds commands

private theorem Well.rests_lookup (well : Well env config state)
    (publishing : state.users user = .publish routingKey data point)
    (looking : state.loop = .lookup id result) : ComesToRest env config user state := by
  obtain ⟨object, found⟩ := well.attentive.handled id (by rw [looking]; rfl)
  obtain ⟨leads, wellAfter⟩ :=
    well.loop (loop_finds env config well.attentive.alive looking found)
  exact (wellAfter.rests_enter publishing rfl).of_leads leads rfl rfl rfl

/-- The event loop comes to rest. -/
theorem Well.rests (well : Well env config state)
    (publishing : state.users user = .publish routingKey data point) :
    ComesToRest env config user state := by
  cases atPoint : state.loop with
  | idle => exact ⟨state, .refl, well, atPoint, rfl, rfl, rfl⟩
  | decode response =>
      obtain ⟨result, decoded⟩ := well.attentive.decodes response atPoint
      obtain ⟨leads, wellAfter⟩ :=
        well.loop (loop_decodes env config well.attentive.alive atPoint decoded)
      exact (wellAfter.rests_lookup publishing rfl).of_leads leads rfl rfl rfl
  | lookup id result => exact well.rests_lookup publishing atPoint
  | set id result place =>
      cases place with
      | enter => exact well.rests_enter publishing atPoint
      | locked => exact well.rests_locked atPoint
  | notify =>
      obtain ⟨leads, wellAfter⟩ :=
        well.loop (loop_notifies env config well.attentive.alive atPoint)
      exact ⟨_, leads, wellAfter, rfl, rfl, rfl, rfl⟩

/-- The event loop notifies a publisher that waits. -/
theorem Well.publishes_notifying (well : Well env config state)
    (publishing : state.users user = .publish routingKey data .blocked)
    (notifying : state.loop = .notify) : CanPublish env config user routingKey data state := by
  obtain ⟨leads, wellAfter⟩ :=
    well.loop (loop_notifies env config well.attentive.alive notifying)
  exact CanPublish.of_leads leads (wellAfter.publishes_notified publishing (List.not_mem_nil))

end Loop

section Confirmation

/-- A publisher that has issued its bind, or found its queue known. -/
def Activity.HasBound : Activity → Prop
  | .publish _ _ .find => False
  | .publish _ _ .declare => False
  | .publish _ _ .bind => False
  | .publish _ _ _ => True
  | _ => False

/-- Some bind was issued. -/
def BindIssued (state : State) : Prop :=
  state.routingKeys ≠ [] ∨ ∃ user, (state.users user).HasBound

/-- Some bind was confirmed, or is to be confirmed. -/
def BindKnown (state : State) : Prop :=
  state.pubQueueInited = true ∨ state.pendingBinds ≠ 0

private theorem BindIssued.of_bound {activity : Activity} (here : state.users user = activity)
    (bound : activity.HasBound) : BindIssued state :=
  Or.inr ⟨user, here.symm ▸ bound⟩

private theorem BindKnown.next (known : BindKnown state)
    (effect : Effect env config state action after) : BindKnown after := by
  have subscripted : ∀ id, BindKnown (state.subscript id).undefined := by
    intro id
    obtain ⟨reqEvents, same⟩ := state.subscript_eq id
    rw [same]
    exact known
  cases effect with
  | callStep inCall effect =>
      cases effect with
      | lookupNull missing => exact subscripted _
      | _ => exact known
  | publishStep publishing effect =>
      cases effect with
      | bind => exact Or.inr (Nat.succ_ne_zero _)
      | _ => exact known
  | loopStep effect =>
      generalize state.loop = point at effect
      cases effect with
      | lookupNull missing => exact subscripted _
      | _ => exact known
  | bindSuccess idle pending => exact Or.inl rfl
  | _ => exact known

/-- A thread takes a step that issues no bind. -/
private theorem BindIssued.moves {activity : Activity} (issued : BindIssued after)
    (users : after.users = Function.update state.users mover activity)
    (bound : activity.HasBound → (state.users mover).HasBound)
    (keys : after.routingKeys = state.routingKeys) : BindIssued state := by
  rcases issued with inserted | ⟨user, hasBound⟩
  · left
    rwa [keys] at inserted
  · right
    rw [users] at hasBound
    by_cases same : user = mover
    · subst same
      rw [Function.update_self] at hasBound
      exact ⟨user, bound hasBound⟩
    · rw [Function.update_of_ne same] at hasBound
      exact ⟨user, hasBound⟩

/-- A bind is issued with its confirmation to come. -/
private theorem issued_or_known (effect : Effect env config state action after)
    (issued : BindIssued after) : BindIssued state ∨ BindKnown after := by
  have subscripted : ∀ id, BindIssued (state.subscript id).undefined → BindIssued state := by
    intro id issued
    obtain ⟨reqEvents, same⟩ := state.subscript_eq id
    rwa [same] at issued
  cases effect with
  | call begun idle fresh => exact Or.inl (issued.moves rfl False.elim rfl)
  | publish idle => exact Or.inl (issued.moves rfl False.elim rfl)
  | callStep inCall effect =>
      left
      cases effect with
      | lookupNull missing => exact subscripted _ issued
      | getDestroyed notThrew missing => exact issued
      | _ => exact issued.moves rfl False.elim rfl
  | publishStep publishing effect =>
      cases effect with
      | known isKnown => exact Or.inl (Or.inl (List.ne_nil_of_mem isKnown))
      | unknown isUnknown => exact Or.inl (issued.moves rfl False.elim rfl)
      | declare => exact Or.inl (issued.moves rfl False.elim rfl)
      | bind => exact Or.inr (Or.inr (Nat.succ_ne_zero _))
      | insert => exact Or.inl (BindIssued.of_bound publishing trivial)
      | _ =>
          refine Or.inl (issued.moves rfl ?_ rfl)
          rw [publishing]
          exact fun _ => trivial
  | loopStep effect =>
      left
      generalize state.loop = point at effect
      cases effect with
      | lookupNull missing => exact subscripted _ issued
      | _ => exact issued
  | wake inCall found => exact Or.inl (issued.moves rfl False.elim rfl)
  | wakePublisher publishing =>
      refine Or.inl (issued.moves rfl ?_ rfl)
      rw [publishing]
      exact id
  | _ => exact Or.inl issued

/-- Where a bind was issued, it was confirmed or is to be confirmed. -/
theorem known_of_issued (reachable : (machine env config).Reachable state)
    (issued : BindIssued state) : BindKnown state := by
  refine reachable.invariant (fun state => BindIssued state → BindKnown state) ?_ ?_ issued
  · intro issued
    rcases issued with inserted | ⟨_, hasBound⟩
    · exact absurd rfl inserted
    · exact False.elim hasBound
  · intro _ _ _ _ known stepped issued
    have effect := (step_effect stepped).2
    rcases issued_or_known effect issued with earlier | isKnown
    · exact (known earlier).next effect
    · exact isKnown

/-- A publisher that waits for its notification will be notified. -/
private theorem Well.notificationDue (well : Well env config state) (due : WakeupsDue state)
    (publishing : state.users user = .publish routingKey data .blocked)
    (listed : .user user ∈ state.pubCv) : NotificationDue state := by
  have issued : BindIssued state := BindIssued.of_bound publishing trivial
  rcases known_of_issued well.reachable issued with inited | pending
  · refine due user (Or.inr ⟨?_, listed⟩) inited
    rw [publishing]
    trivial
  · exact Or.inr (Or.inl pending)

/-- Steps of the threads lose no wake-up. -/
private theorem due_of_threadsGo (leads : (machine env config).Leads ThreadsGo state after)
    (due : WakeupsDue state) : WakeupsDue after := by
  refine leads.invariant WakeupsDue due ?_
  intro between next action due goes stepped
  refine due.next ?_ (step_effect stepped).2
  intro isLoop
  subst isLoop
  exact False.elim goes

/-- The bind of another publisher was issued, and the publisher is where it
was. -/
def BindsFor (env : Env) (config : Config) (user : Nat) (state : State) : Prop :=
  ∃ later, (machine env config).Leads ThreadsGo state later ∧ Well env config later ∧
    later.users user = state.users user ∧ later.pendingBinds ≠ 0

private theorem Well.bindsFor_bind (well : Well env config state) (different : user ≠ mover)
    (publishing : state.users mover = .publish routingKey data .bind) :
    BindsFor env config user state := by
  obtain ⟨leads, wellAfter⟩ := well.publish publishing rfl
  exact ⟨_, leads, wellAfter, Function.update_of_ne different _ _, Nat.succ_ne_zero _⟩

private theorem Well.bindsFor_declare (well : Well env config state) (different : user ≠ mover)
    (publishing : state.users mover = .publish routingKey data .declare) :
    BindsFor env config user state := by
  obtain ⟨leads, wellAfter⟩ := well.publish publishing rfl
  obtain ⟨later, toLater, wellLater, users, pending⟩ :=
    wellAfter.bindsFor_bind different (Function.update_self ..)
  exact ⟨later, leads.trans toLater, wellLater,
    users.trans (Function.update_of_ne different _ _), pending⟩

/-- A bind that is due comes to its confirmation. -/
private theorem Well.bindsFor (well : Well env config state) (due : BindDue state)
    (publishing : state.users user = .publish routingKey data .blocked) :
    BindsFor env config user state := by
  rcases due with pending | ⟨binder, aboutToBind⟩
  · exact ⟨state, .refl, well, rfl, pending⟩
  · have different : user ≠ binder := by
      intro same
      rw [← same, publishing] at aboutToBind
      exact aboutToBind
    cases binding : state.users binder with
    | publish routingKey data point =>
        rw [binding] at aboutToBind
        cases point with
        | declare => exact well.bindsFor_declare different binding
        | bind => exact well.bindsFor_bind different binding
        | _ => exact False.elim aboutToBind
    | idle =>
        rw [binding] at aboutToBind
        exact False.elim aboutToBind
    | call call point =>
        rw [binding] at aboutToBind
        exact False.elim aboutToBind

/-- The event loop rests and can take the confirmation of a bind, while the
publisher waits. -/
structure AwaitsBind (env : Env) (config : Config) (user : Nat) (routingKey data : Str)
    (state : State) : Prop where
  well : Well env config state
  publishing : state.users user = .publish routingKey data .blocked
  idle : state.loop = .idle
  pending : state.pendingBinds ≠ 0

/-- A publisher that waits can publish, or comes to wait for the confirmation of
a bind. -/
private theorem Well.publishes_or_awaits_blocked (well : Well env config state)
    (due : WakeupsDue state) (publishing : state.users user = .publish routingKey data .blocked) :
    CanPublish env config user routingKey data state ∨
      ∃ later, (machine env config).Leads (Proceeds user) state later ∧
        AwaitsBind env config user routingKey data later := by
  by_cases listed : .user user ∈ state.pubCv
  · rcases well.notificationDue due publishing listed with notifying | bindDue
    · exact Or.inl (well.publishes_notifying publishing notifying)
    · obtain ⟨bound, toBound, wellBound, users, pending⟩ := well.bindsFor bindDue publishing
      have blocked := users.trans publishing
      obtain ⟨later, toLater, wellLater, idle, usersLater, binds, _⟩ := wellBound.rests blocked
      refine Or.inr ⟨later, (toBound.weaken proceeds_of_threadsGo).trans toLater, wellLater,
        usersLater.trans blocked, idle, ?_⟩
      rw [binds]
      exact pending
  · exact Or.inl (well.publishes_notified publishing listed)

/-- A publisher can publish, or comes to wait for the confirmation of a bind. -/
theorem Well.publishes_or_awaits {point : PublishPoint} (well : Well env config state)
    (due : WakeupsDue state) (publishing : state.users user = .publish routingKey data point) :
    CanPublish env config user routingKey data state ∨
      ∃ later, (machine env config).Leads (Proceeds user) state later ∧
        AwaitsBind env config user routingKey data later := by
  rcases well.publishes_or_waits publishing with publishes | ⟨waiting, leads, wellWaiting, blocked⟩
  · exact Or.inl publishes
  · have toWaiting : (machine env config).Leads (Proceeds user) state waiting :=
      leads.weaken proceeds_of_threadsGo
    rcases wellWaiting.publishes_or_awaits_blocked (due_of_threadsGo leads due) blocked with
      publishes | ⟨later, toLater, awaits⟩
    · exact Or.inl (CanPublish.of_leads toWaiting publishes)
    · exact Or.inr ⟨later, toWaiting.trans toLater, awaits⟩

/-- The confirmation of a bind lets the publisher go on. -/
theorem AwaitsBind.confirmed (awaits : AwaitsBind env config user routingKey data state) :
    ∃ after, (machine env config).step state .bindSuccess = some after ∧
      CanPublish env config user routingKey data after := by
  have stepped : (machine env config).step state .bindSuccess = some
      { state with
        pubQueueInited := true
        pendingBinds := state.pendingBinds - 1
        loop := .notify } := by
    simp [machine, step, awaits.well.attentive.alive, awaits.idle, awaits.pending]
  refine ⟨_, stepped, ?_⟩
  have well := awaits.well.quiet stepped trivial
  exact well.publishes_notifying awaits.publishing rfl

end Confirmation

end Client

end Ccmqsrv
