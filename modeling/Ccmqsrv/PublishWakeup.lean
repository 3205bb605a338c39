import Ccmqsrv.PendingRequests

/-!
# Publishers that wait for their queue

A publisher tests `pub_queue_inited` and then starts to wait, both under
`pub_mtx`.  The callback of a bind sets the flag and then notifies, under no
mutex at all, so both of its steps can fall between the test and the wait.  The
publisher then waits for a notification that was already given.

It is notified nevertheless if another bind is under way.  No wake-up is lost
as long as the callback notifies a publisher between its test and its wait only
then.
-/

namespace Ccmqsrv

open Foundations

namespace Client

/-- A publisher that will issue a bind. -/
def Activity.AboutToBind : Activity → Prop
  | .publish _ _ .declare => True
  | .publish _ _ .bind => True
  | _ => False

/-- A publisher between its test of the flag and its wait. -/
def Activity.AboutToWait : Activity → Prop
  | .publish _ _ .wait => True
  | _ => False

/-- A publisher in `pub_cv.wait`. -/
def Activity.Blocked : Activity → Prop
  | .publish _ _ .blocked => True
  | _ => False

/-- A bind will be confirmed. -/
def BindDue (state : State) : Prop :=
  state.pendingBinds ≠ 0 ∨ ∃ user, (state.users user).AboutToBind

/-- The publishers will be notified. -/
def NotificationDue (state : State) : Prop :=
  state.loop = .notify ∨ BindDue state

/-- A publisher is blocked and was not notified, the flag is set, and nothing
will notify it. -/
def Lost (state : State) : Prop :=
  ∃ user, (state.users user).Blocked ∧ .user user ∈ state.pubCv ∧
    state.pubQueueInited = true ∧ ¬ NotificationDue state

/-- The callback of a bind notifies a publisher between its test and its wait
only when another bind is due. -/
def KeepsWakeups (state : State) (action : Action) : Prop :=
  action = .advance .loop → state.loop = .notify →
    (∃ user, (state.users user).AboutToWait) → BindDue state

/-- A publisher that found the flag unset and was not notified since it
blocked. -/
def Waiting (state : State) (user : Nat) : Prop :=
  (state.users user).AboutToWait ∨
    (state.users user).Blocked ∧ .user user ∈ state.pubCv

/-- Whoever waits in vain for the flag will be notified. -/
def WakeupsDue (state : State) : Prop :=
  ∀ user, Waiting state user → state.pubQueueInited = true → NotificationDue state

variable {env : Env} {config : Config} {state after : State} {action : Action}

theorem WakeupsDue.not_lost (due : WakeupsDue state) : ¬ Lost state := by
  intro lost
  obtain ⟨user, blocked, waits, inited, notDue⟩ := lost
  exact notDue (due user (Or.inr ⟨blocked, waits⟩) inited)

section Frames

variable {user : Nat} {activity : Activity}

/-- A step of the event loop before it notifies, or of nobody. -/
private theorem WakeupsDue.still (due : WakeupsDue state) (users : after.users = state.users)
    (condVar : after.pubCv = state.pubCv) (inited : after.pubQueueInited = state.pubQueueInited)
    (binds : after.pendingBinds = state.pendingBinds)
    (notifies : state.loop = .notify → after.loop = .notify) : WakeupsDue after := by
  intro other waits isInited
  unfold Waiting at waits
  rw [users, condVar] at waits
  rw [inited] at isInited
  rcases due other waits isInited with notifying | bindDue
  · exact Or.inl (notifies notifying)
  · right
    unfold BindDue at *
    rw [binds, users]
    exact bindDue

/-- A step of a thread that neither starts nor continues to wait. -/
private theorem WakeupsDue.moves (due : WakeupsDue state)
    (users : after.users = Function.update state.users user activity)
    (notWaiting : ¬ activity.AboutToWait ∧ ¬ activity.Blocked)
    (binding : (state.users user).AboutToBind → activity.AboutToBind)
    (condVar : ∀ thread, thread ∈ after.pubCv → thread ∈ state.pubCv)
    (inited : after.pubQueueInited = state.pubQueueInited)
    (binds : after.pendingBinds = state.pendingBinds) (loop : after.loop = state.loop) :
    WakeupsDue after := by
  intro other waits isInited
  have notSame : other ≠ user := by
    intro same
    unfold Waiting at waits
    rw [users, same, Function.update_self] at waits
    rcases waits with aboutToWait | ⟨blocked, _⟩
    · exact notWaiting.1 aboutToWait
    · exact notWaiting.2 blocked
  have waited : Waiting state other := by
    unfold Waiting at waits
    rw [users, Function.update_of_ne notSame] at waits
    rcases waits with aboutToWait | ⟨blocked, listed⟩
    · exact Or.inl aboutToWait
    · exact Or.inr ⟨blocked, condVar _ listed⟩
  rw [inited] at isInited
  rcases due other waited isInited with notifying | pending | ⟨binder, aboutToBind⟩
  · exact Or.inl (loop.trans notifying)
  · right
    left
    rw [binds]
    exact pending
  · right
    right
    refine ⟨binder, ?_⟩
    rw [users]
    by_cases same : binder = user
    · subst same
      rw [Function.update_self]
      exact binding aboutToBind
    · rw [Function.update_of_ne same]
      exact aboutToBind

end Frames

/-- An inserting lookup is no concern of publishers. -/
private theorem WakeupsDue.subscript (due : WakeupsDue state) (id : Str) :
    WakeupsDue (state.subscript id).undefined := by
  obtain ⟨reqEvents, same⟩ := state.subscript_eq id
  rw [same]
  exact due.still rfl rfl rfl rfl fun notifying => notifying

private theorem WakeupsDue.callStep {user : Nat} {call : Call} {point : CallPoint}
    (due : WakeupsDue state) (inCall : state.users user = .call call point)
    (effect : CallEffect env config state user call point after) : WakeupsDue after := by
  have notBinding : ∀ activity : Activity,
      (state.users user).AboutToBind → activity.AboutToBind := by
    rw [inCall]
    exact fun _ impossible => False.elim impossible
  cases effect with
  | lookupNull missing => exact due.subscript call.id
  | getDestroyed notThrew missing => exact due.still rfl rfl rfl rfl id
  | _ => exact due.moves rfl ⟨id, id⟩ (notBinding _) (fun _ => id) rfl rfl rfl

private theorem WakeupsDue.publishStep {user : Nat} {routingKey data : Str}
    {point : PublishPoint} (due : WakeupsDue state)
    (publishing : state.users user = .publish routingKey data point)
    (effect : PublishEffect config state user routingKey data point after) :
    WakeupsDue after := by
  have notBinding : ∀ activity : Activity, ¬ (Activity.publish routingKey data point).AboutToBind →
      (state.users user).AboutToBind → activity.AboutToBind := by
    rw [publishing]
    exact fun _ not aboutToBind => absurd aboutToBind not
  cases effect with
  | unknown unknown => exact due.moves rfl ⟨id, id⟩ (fun _ => trivial) (fun _ => id) rfl rfl rfl
  | declare => exact due.moves rfl ⟨id, id⟩ (fun _ => trivial) (fun _ => id) rfl rfl rfl
  | bind =>
      intro _ _ _
      exact Or.inr (Or.inl (Nat.succ_ne_zero _))
  | notReady notInited =>
      intro _ _ isInited
      exact absurd isInited (by simp [State.put, notInited])
  | wait =>
      intro other waits isInited
      have waited : Waiting state other := by
        by_cases same : other = user
        · left
          rw [same, publishing]
          trivial
        · unfold Waiting at waits
          rcases waits with aboutToWait | ⟨blocked, listed⟩
          · left
            rwa [State.put_of_ne _ _ _ same] at aboutToWait
          · right
            rw [State.put_of_ne _ _ _ same] at blocked
            rcases List.mem_cons.mp listed with isUser | earlier
            · injection isUser with isUser
              exact absurd isUser same
            · exact ⟨blocked, earlier⟩
      rcases due other waited isInited with notifying | pending | ⟨binder, aboutToBind⟩
      · exact Or.inl notifying
      · exact Or.inr (Or.inl pending)
      · refine Or.inr (Or.inr ⟨binder, ?_⟩)
        have different : binder ≠ user := by
          intro same
          rw [same, publishing] at aboutToBind
          exact aboutToBind
        show ((state.put user _).users binder).AboutToBind
        rw [State.put_of_ne _ _ _ different]
        exact aboutToBind
  | _ => exact due.moves rfl ⟨id, id⟩ (notBinding _ id) (fun _ => id) rfl rfl rfl

private theorem WakeupsDue.loopStep (due : WakeupsDue state)
    (keeps : KeepsWakeups state (.advance .loop))
    (effect : LoopEffect env state state.loop after) : WakeupsDue after := by
  generalize same : state.loop = point at effect
  have notNotifying : point ≠ .notify → ∀ loop : LoopPoint,
      state.loop = .notify → loop = .notify := by
    intro different _ notifying
    exact absurd (same.symm.trans notifying) different
  cases effect with
  | notify =>
      intro user waits _
      have aboutToWait : (state.users user).AboutToWait := by
        rcases waits with aboutToWait | ⟨_, listed⟩
        · exact aboutToWait
        · cases listed
      exact Or.inr (keeps rfl same ⟨user, aboutToWait⟩)
  | lookupNull missing => exact due.subscript _
  | _ => exact due.still rfl rfl rfl rfl (notNotifying nofun _)

theorem WakeupsDue.next (due : WakeupsDue state) (keeps : KeepsWakeups state action)
    (effect : Effect env config state action after) : WakeupsDue after := by
  cases effect with
  | call begun idle fresh =>
      exact due.moves rfl ⟨id, id⟩ (by rw [idle]; exact False.elim) (fun _ => id) rfl rfl rfl
  | publish idle =>
      exact due.moves rfl ⟨id, id⟩ (by rw [idle]; exact False.elim) (fun _ => id) rfl rfl rfl
  | callStep inCall effect => exact due.callStep inCall effect
  | publishStep publishing effect => exact due.publishStep publishing effect
  | loopStep effect => exact due.loopStep keeps effect
  | wake inCall found =>
      exact due.moves rfl ⟨id, id⟩ (by rw [inCall]; exact False.elim) (fun _ => id) rfl rfl rfl
  | wakePublisher publishing =>
      refine due.moves rfl ⟨id, id⟩ (by rw [publishing]; exact False.elim) ?_ rfl rfl rfl
      intro _ listed
      exact (CondVar.mem_leave.mp listed).1
  | deliver idle known =>
      refine due.still rfl rfl rfl rfl fun notifying => ?_
      rw [idle] at notifying
      cases notifying
  | store storing found chosen =>
      refine due.still rfl rfl rfl rfl fun notifying => ?_
      rw [storing] at notifying
      cases notifying
  | bindSuccess idle pending => exact fun _ _ _ => Or.inl rfl
  | _ => exact due.still rfl rfl rfl rfl id

/-- No wake-up is lost in runs that keep them. -/
theorem not_lost_of_run {trace : List Action}
    (run : (machine env config).Run KeepsWakeups trace state) : ¬ Lost state := by
  have due : WakeupsDue state := by
    refine run.invariant (fun _ state => WakeupsDue state) ?_ ?_
    · intro _ _ inited
      cases inited
    · intro _ _ _ _ _ due keeps stepped
      exact due.next keeps (step_effect stepped).2
  exact due.not_lost

/-- `KeepsWakeups`, computed where the pending binds decide it. -/
def keepsWakeups (state : State) : Action → Bool
  | .advance .loop =>
      match state.loop with
      | .notify => state.pendingBinds != 0
      | _ => true
  | _ => true

theorem keepsWakeups_sound (state : State) (action : Action)
    (passed : keepsWakeups state action = true) : KeepsWakeups state action := by
  intro isLoop notifying _
  subst isLoop
  simp only [keepsWakeups, notifying, bne_iff_ne] at passed
  exact Or.inl passed

def Activity.blocked : Activity → Bool
  | .publish _ _ .blocked => true
  | _ => false

/-- Two publishers bind their queues, and the first bind is confirmed between
the test and the wait of one of them. -/
def notifiedTwice : List Action :=
  [.publish 0 (ascii "q") (ascii "e") (.int 1), .publish 1 (ascii "r") (ascii "e") (.int 2)] ++
    List.replicate 3 (.advance (.user 1)) ++ List.replicate 6 (.advance (.user 0)) ++
    [.bindSuccess, .advance .loop, .advance (.user 0)]

theorem not_lost_notifiedTwice :
    ∃ state, (machine ⟨codec, false⟩ exampleConfig).Run KeepsWakeups notifiedTwice state ∧
      ((state.users 0).blocked && state.pubQueueInited) = true ∧ ¬ Lost state := by
  have passed : (((machine ⟨codec, false⟩ exampleConfig).execWhile keepsWakeups notifiedTwice
      (machine ⟨codec, false⟩ exampleConfig).init).any fun state =>
        (state.users 0).blocked && state.pubQueueInited) = true := by
    decide +kernel
  obtain ⟨state, run, waits⟩ := Machine.Run.of_execWhile_any keepsWakeups_sound passed
  exact ⟨state, run, waits, not_lost_of_run run⟩

/-- The flag is never taken back, and it is set before a notification. -/
private theorem inited_or_same (effect : Effect env config state action after) :
    after.pubQueueInited = true ∨ after.pubQueueInited = state.pubQueueInited ∧
      (after.loop = .notify → state.loop = .notify) := by
  cases effect with
  | callStep inCall effect =>
      right
      have loop := effect.loop_eq
      refine ⟨?_, fun notifying => loop.symm.trans notifying⟩
      cases effect with
      | lookupNull missing =>
          unfold State.undefined State.subscript
          split <;> rfl
      | _ => rfl
  | publishStep publishing effect =>
      right
      refine ⟨?_, fun notifying => effect.frame.loop.symm.trans notifying⟩
      cases effect <;> rfl
  | loopStep effect =>
      right
      generalize same : state.loop = point at effect
      cases effect with
      | lookupNull missing =>
          unfold State.undefined State.subscript
          split <;> exact ⟨rfl, fun notifying => same.symm.trans notifying⟩
      | setDestroyed missing => exact ⟨rfl, fun notifying => same.symm.trans notifying⟩
      | decodeFault failed => exact ⟨rfl, fun notifying => same.symm.trans notifying⟩
      | _ => exact ⟨rfl, nofun⟩
  | deliver idle known => exact Or.inr ⟨rfl, nofun⟩
  | store storing found chosen => exact Or.inr ⟨rfl, nofun⟩
  | bindSuccess idle pending => exact Or.inl rfl
  | _ => exact Or.inr ⟨rfl, id⟩

private theorem inited_of_notifying (reachable : (machine env config).Reachable state) :
    state.loop = .notify → state.pubQueueInited = true := by
  apply reachable.invariant fun state => state.loop = .notify → state.pubQueueInited = true
  · nofun
  · intro _ _ _ _ earlier stepped notifying
    rcases inited_or_same (step_effect stepped).2 with inited | ⟨same, notified⟩
    · exact inited
    · rw [same]
      exact earlier (notified notifying)

/-- Every step that does not keep the wake-ups lets one be lost. -/
theorem lost_of_not_keeps (reachable : (machine env config).Reachable state)
    (alive : state.fault = none) (breaks : ¬ KeepsWakeups state action) :
    ∃ final, (machine env config).Leads Machine.always state final ∧ Lost final := by
  obtain ⟨isLoop, ifNotifying⟩ := Classical.not_imp.mp breaks
  obtain ⟨notifying, ifEarly⟩ := Classical.not_imp.mp ifNotifying
  obtain ⟨⟨user, aboutToWait⟩, notDue⟩ := Classical.not_imp.mp ifEarly
  subst isLoop
  have inited := inited_of_notifying reachable notifying
  cases publishing : state.users user with
  | publish routingKey data point =>
      rw [publishing] at aboutToWait
      cases point with
      | wait =>
          let notified : State := { state with pubCv := [], loop := .idle }
          let final : State :=
            { notified.put user (.publish routingKey data .blocked) with
              pubMtx := none
              pubCv := [.user user] }
          have notifies : (machine env config).step state (.advance .loop) = some notified := by
            simp [machine, step, alive, notifying, loopStep, notified]
          have waits : (machine env config).step notified (.advance (.user user)) =
              some final := by
            simp [machine, step, alive, notified, publishing, publishStep, final]
          refine ⟨final, (Machine.Leads.step trivial notifies).trans
            (Machine.Leads.step trivial waits), user, ?_, List.mem_singleton_self _, inited, ?_⟩
          · show ((notified.put user _).users user).Blocked
            rw [State.put_self]
            trivial
          · intro due
            rcases due with impossible | pending | ⟨binder, aboutToBind⟩
            · cases impossible
            · exact notDue (Or.inl pending)
            · refine notDue (Or.inr ⟨binder, ?_⟩)
              have different : binder ≠ user := by
                intro same
                subst same
                have blocked : final.users binder = .publish routingKey data .blocked :=
                  State.put_self ..
                rw [blocked] at aboutToBind
                exact aboutToBind
              have kept : final.users binder = state.users binder :=
                State.put_of_ne _ _ _ different
              rwa [kept] at aboutToBind
      | _ => exact False.elim aboutToWait
  | idle =>
      rw [publishing] at aboutToWait
      exact False.elim aboutToWait
  | call call point =>
      rw [publishing] at aboutToWait
      exact False.elim aboutToWait

/-- The thread an action belongs to, if it is not the event loop. -/
def Action.user : Action → Option Nat
  | .call user _ _ _ _ => some user
  | .publish user _ _ _ => some user
  | .advance (.user user) => some user
  | .wake user _ => some user
  | .wakePublisher user => some user
  | .advance .loop => none
  | .deliver _ => none
  | .store _ => none
  | .bindSuccess => none

theorem Effect.users_of_ne {other : Nat} (effect : Effect env config state action after)
    (different : action.user ≠ some other) : after.users other = state.users other := by
  have isOther : ∀ {user : Nat}, some user ≠ some other → other ≠ user := by
    intro user notSame same
    exact notSame (congrArg some same.symm)
  cases effect with
  | callStep inCall effect => exact effect.users_of_ne (isOther different)
  | publishStep publishing effect =>
      obtain ⟨activity, users, _⟩ := effect.frame.users
      rw [users]
      exact Function.update_of_ne (isOther different) ..
  | loopStep effect =>
      generalize state.loop = point at effect
      cases effect with
      | lookupNull missing => exact congrFun (state.subscript_frame _).1 other
      | _ => rfl
  | call begun idle fresh => exact Function.update_of_ne (isOther different) ..
  | publish idle => exact Function.update_of_ne (isOther different) ..
  | wake inCall found => exact Function.update_of_ne (isOther different) ..
  | wakePublisher publishing => exact Function.update_of_ne (isOther different) ..
  | _ => rfl

/-- Of the threads only these act. -/
def OnlyBy (acts : Nat → Prop) (_ : State) (action : Action) : Prop :=
  ∀ user, action.user = some user → acts user

/-- Threads that take no step stay idle. -/
theorem users_idle_of_run {trace : List Action} {acts : Nat → Prop}
    (run : (machine env config).Run (OnlyBy acts) trace state)
    {other : Nat} (never : ¬ acts other) : state.users other = .idle := by
  refine run.invariant (fun _ state => state.users other = .idle) rfl ?_
  intro _ _ _ _ _ idle allowed stepped
  rw [(step_effect stepped).2.users_of_ne fun same => never (allowed other same)]
  exact idle

/-- The event loop is about to notify, and the only publisher about to wait. -/
def notifiesEarly (state : State) : Bool :=
  match state.loop, state.users 0 with
  | .notify, .publish _ _ .wait => state.fault.isNone && state.pendingBinds == 0
  | _, _ => false

/-- The bind of a publisher is confirmed between its test and its wait. -/
def earlyNotification : List Action :=
  .publish 0 (ascii "q") (ascii "e") (.int 1) :: List.replicate 6 (.advance (.user 0)) ++
    [.bindSuccess]

/-- One publisher may wait for a notification that was already given. -/
theorem not_never_lost :
    ¬ ∀ state, (machine ⟨codec, false⟩ exampleConfig).Reachable state → ¬ Lost state := by
  intro never
  have allowed : ∀ state, ∀ action ∈ earlyNotification, OnlyBy (· = 0) state action := by
    intro _ action member user isUser
    simp only [earlyNotification, List.mem_cons, List.mem_append, List.mem_replicate,
      List.not_mem_nil, or_false] at member
    rcases member with (rfl | ⟨_, rfl⟩) | rfl
    · exact (Option.some.inj isUser).symm
    · exact (Option.some.inj isUser).symm
    · cases isUser
  have reached : (((machine ⟨codec, false⟩ exampleConfig).exec earlyNotification
      (machine ⟨codec, false⟩ exampleConfig).init).any notifiesEarly) = true := by
    decide +kernel
  obtain ⟨state, run, early⟩ := Machine.Run.of_exec_any allowed reached
  unfold notifiesEarly at early
  split at early
  · rename_i routingKey data notifying publishing
    obtain ⟨alive, noBinds⟩ := Bool.and_eq_true_iff.mp early
    have notDue : ¬ BindDue state := by
      intro due
      rcases due with pending | ⟨binder, aboutToBind⟩
      · exact pending (by simpa using noBinds)
      · by_cases first : binder = 0
        · rw [first, publishing] at aboutToBind
          exact aboutToBind
        · rw [users_idle_of_run run first] at aboutToBind
          exact aboutToBind
    have breaks : ¬ KeepsWakeups state (.advance .loop) := by
      intro keeps
      refine notDue (keeps rfl notifying ⟨0, ?_⟩)
      rw [publishing]
      trivial
    obtain ⟨final, leads, lost⟩ :=
      lost_of_not_keeps run.reachable (Option.isNone_iff_eq_none.mp alive) breaks
    exact never final (leads.reachable run.reachable) lost
  · cases early

end Client

end Ccmqsrv
