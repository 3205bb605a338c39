import Ccmqsrv.Registrations

/-!
# The ids of event handlers

An id is allotted by `register_event_handler` and may then be found in the
table of handlers and in the workers that an event has queued.  A worker that
finds no entry for its id makes one, so what holds of the ids in the table must
hold of the ids of the workers as well: each is between 1 and the counter, and
each belongs to one event type.

It follows that an id leads to one event type whatever the order in which the
table is walked.  Whether unregistering undoes registering is then a matter of
the event type: an empty one is not told from no event type at all, and one
without handlers is never removed from the table.
-/

namespace Ccmqsrv

open Foundations

namespace Server

/-- The id is in the table under the event type, or a queued worker will look
it up there. -/
def Occurs (state : State) (eventType : Str) (cbId : Int) : Prop :=
  ((handlersAt state.server eventType).lookup cbId).isSome = true ∨
    ∃ eventData, .event eventType cbId eventData ∈ state.tasks

/-- What the counter says about the ids in use. -/
structure IdsFit (state : State) : Prop where
  counted : 0 ≤ state.server.evtCbId
  bounded : ∀ eventType cbId, Occurs state eventType cbId →
    1 ≤ cbId ∧ cbId ≤ state.server.evtCbId
  oneType : ∀ left right cbId, Occurs state left cbId → Occurs state right cbId → left = right

variable {env : Env} {state after : State}

/-- A step that brings no id to a new place and does not touch the counter. -/
theorem IdsFit.keep (fit : IdsFit state)
    (sameCounter : after.server.evtCbId = state.server.evtCbId)
    (old : ∀ eventType cbId, Occurs after eventType cbId → Occurs state eventType cbId) :
    IdsFit after where
  counted := by
    rw [sameCounter]
    exact fit.counted
  bounded eventType cbId occurs := by
    rw [sameCounter]
    exact fit.bounded eventType cbId (old eventType cbId occurs)
  oneType left right cbId inLeft inRight :=
    fit.oneType left right cbId (old left cbId inLeft) (old right cbId inRight)

/-- The id after the counter is in use nowhere. -/
theorem IdsFit.not_occurs_next (fit : IdsFit state) (eventType : Str) :
    ¬ Occurs state eventType (state.server.evtCbId + 1) := by
  intro occurs
  have bound := (fit.bounded eventType _ occurs).2
  omega

/-- No step of a worker queues a worker for an event. -/
private theorem event_not_mem_next {server next : MessageQueueServer} {task : Task}
    {calls : List Invocation} {tasks : List Task} {published : List Envelope}
    (worked : workStep env server task = (next, ⟨calls, .ok (tasks, published)⟩))
    (eventType : Str) (cbId : Int) (eventData : Any) :
    .event eventType cbId eventData ∉ tasks := by
  have outcome := congrArg (fun worked => worked.2.outcome) worked
  cases task with
  | rpc message =>
      obtain ⟨found, _, same⟩ := bind_eq_ok.mp outcome
      cases same
      cases found <;> simp [afterLookup]
  | rpcCall message meth args =>
      obtain ⟨res, _, same⟩ := bind_eq_ok.mp outcome
      cases same
      simp
  | rpcReply message res =>
      obtain ⟨envelope, _, same⟩ := bind_eq_ok.mp outcome
      cases same
      simp
  | event someType someId someData =>
      obtain ⟨done, _, same⟩ := bind_eq_ok.mp outcome
      cases same
      simp

private theorem evtCbId_workStep (server : MessageQueueServer) (task : Task) :
    (workStep env server task).1.evtCbId = server.evtCbId := by
  cases task <;> rfl

/-- A worker makes at most the entry it looks up. -/
private theorem lookup_workStep {server : MessageQueueServer} {task : Task} {eventType : Str}
    {cbId : Int}
    (present : ((handlersAt (workStep env server task).1 eventType).lookup cbId).isSome = true) :
    ((handlersAt server eventType).lookup cbId).isSome = true ∨
      ∃ eventData, task = .event eventType cbId eventData := by
  cases task with
  | rpc message => exact Or.inl present
  | rpcCall message meth args => exact Or.inl present
  | rpcReply message res => exact Or.inl present
  | event someType someId eventData =>
      cases found : (handlersAt server someType).lookup someId with
      | some function =>
          rw [workStep, eventWorker_of_lookup found] at present
          exact Or.inl present
      | none =>
          simp only [workStep, eventWorker, functionAt_of_lookup_none found,
            handlersAt_insert] at present
          by_cases sameType : eventType = someType
          · subst sameType
            rw [if_pos rfl, OrderedMap.lookup_insert] at present
            by_cases sameId : cbId = someId
            · subst sameId
              exact Or.inr ⟨eventData, rfl⟩
            · rw [if_neg sameId] at present
              exact Or.inl present
          · rw [if_neg sameType] at present
            exact Or.inl present

private theorem evtCbId_unregisterEventHandler (server : MessageQueueServer) (order : List Str)
    (cbId : Int) :
    (unregisterEventHandler server order cbId).evtCbId = server.evtCbId := by
  by_cases noType : eventTypeOf server order cbId = []
  · rw [unregisterEventHandler_of_nil noType]
  · rw [unregisterEventHandler_of_ne_nil noType]

/-- Unregistering a handler only takes the id away. -/
private theorem lookup_unregisterEventHandler {server : MessageQueueServer} {order : List Str}
    {cbId other : Int} {eventType : Str}
    (present : ((handlersAt (unregisterEventHandler server order cbId) eventType).lookup
      other).isSome = true) :
    ((handlersAt server eventType).lookup other).isSome = true := by
  by_cases noType : eventTypeOf server order cbId = []
  · rw [unregisterEventHandler_of_nil noType] at present
    exact present
  · rw [unregisterEventHandler_of_ne_nil noType, handlersAt_insert] at present
    by_cases sameType : eventType = eventTypeOf server order cbId
    · subst sameType
      rw [if_pos rfl, OrderedMap.lookup_erase] at present
      by_cases sameId : other = cbId
      · rw [if_pos sameId] at present
        cases present
      · rw [if_neg sameId] at present
        exact present
    · rw [if_neg sameType] at present
      exact present

/-- A step of a worker that queues no worker for an event. -/
private theorem IdsFit.worked {index : Nat} {task : Task} (fit : IdsFit state)
    (found : state.tasks[index]? = some task)
    (served : after.server = (workStep env state.server task).1)
    (queued : ∀ eventType cbId eventData,
      .event eventType cbId eventData ∈ after.tasks →
        .event eventType cbId eventData ∈ state.tasks) :
    IdsFit after := by
  apply fit.keep
  · rw [served, evtCbId_workStep]
  · intro eventType cbId occurs
    rcases occurs with present | ⟨eventData, member⟩
    · rw [served] at present
      rcases lookup_workStep present with old | ⟨eventData, same⟩
      · exact Or.inl old
      · exact Or.inr ⟨eventData, same ▸ List.mem_of_getElem? found⟩
    · exact Or.inr ⟨eventData, queued eventType cbId eventData member⟩

/-- The workers of an event look up ids that are in the table. -/
private theorem occurs_of_eventMessage {body : Str} {tasks : List Task}
    (received : onEventMessage env state.server body = .ok tasks) {eventType : Str}
    {cbId : Int} {eventData : Any} (queued : .event eventType cbId eventData ∈ tasks) :
    ((handlersAt state.server eventType).lookup cbId).isSome = true := by
  obtain ⟨bodyVec, _, afterLoad⟩ := bind_eq_ok.mp received
  obtain ⟨first, _, afterFirst⟩ := bind_eq_ok.mp afterLoad
  obtain ⟨someType, _, afterType⟩ := bind_eq_ok.mp afterFirst
  obtain ⟨someData, _, same⟩ := bind_eq_ok.mp afterType
  cases same
  rw [eventTasks_eq] at queued
  obtain ⟨someId, member, isTask⟩ := List.mem_map.mp queued
  cases isTask
  exact OrderedMap.mem_keys_iff.mp member

private theorem IdsFit.eventMessage {body : Str} {tasks : List Task} (fit : IdsFit state)
    (received : onEventMessage env state.server body = .ok tasks) :
    IdsFit { state with tasks := tasks ++ state.tasks } := by
  refine fit.keep rfl fun eventType cbId occurs => ?_
  rcases occurs with present | ⟨eventData, queued⟩
  · exact Or.inl present
  · rcases List.mem_append.mp queued with new | old
    · exact Or.inl (occurs_of_eventMessage received new)
    · exact Or.inr ⟨eventData, old⟩

/-- The tables with one more handler, under the next id. -/
def withHandler (server : MessageQueueServer) (eventType : Str) (cb : Handler) :
    MessageQueueServer :=
  { server with
    evtCbId := server.evtCbId + 1
    eventHandlerMap := server.eventHandlerMap.insert eventType
      ((handlersAt server eventType).insert (server.evtCbId + 1) (some cb)) }

theorem handlersAt_withHandler (server : MessageQueueServer) (eventType other : Str)
    (cb : Handler) :
    handlersAt (withHandler server eventType cb) other =
      if other = eventType then
        (handlersAt server eventType).insert (server.evtCbId + 1) (some cb)
      else handlersAt server other :=
  handlersAt_insert { server with evtCbId := server.evtCbId + 1 } eventType other _

theorem lookup_withHandler (server : MessageQueueServer) (eventType other : Str)
    (cb : Handler) (cbId : Int) :
    (handlersAt (withHandler server eventType cb) other).lookup cbId =
      if other = eventType ∧ cbId = server.evtCbId + 1 then some (some cb)
      else (handlersAt server other).lookup cbId := by
  rw [handlersAt_withHandler]
  by_cases sameType : other = eventType
  · rw [if_pos sameType, OrderedMap.lookup_insert, sameType]
    simp
  · rw [if_neg sameType, if_neg (fun both => sameType both.1)]

private theorem IdsFit.register (fit : IdsFit state) (eventType : Str) (cb : Handler) :
    IdsFit { state with server := withHandler state.server eventType cb } := by
  have newOrOld : ∀ other cbId,
      Occurs { state with server := withHandler state.server eventType cb } other cbId →
        (other = eventType ∧ cbId = state.server.evtCbId + 1) ∨ Occurs state other cbId := by
    intro other cbId occurs
    rcases occurs with present | queued
    · have looked := present
      rw [lookup_withHandler] at looked
      by_cases isNew : other = eventType ∧ cbId = state.server.evtCbId + 1
      · exact Or.inl isNew
      · rw [if_neg isNew] at looked
        exact Or.inr (Or.inl looked)
    · exact Or.inr (Or.inr queued)
  have counted := fit.counted
  constructor
  · show 0 ≤ state.server.evtCbId + 1
    omega
  · intro other cbId occurs
    show 1 ≤ cbId ∧ cbId ≤ state.server.evtCbId + 1
    rcases newOrOld other cbId occurs with ⟨_, isNew⟩ | old
    · omega
    · have bound := fit.bounded other cbId old
      omega
  · intro left right cbId inLeft inRight
    rcases newOrOld left cbId inLeft with ⟨leftType, isNew⟩ | oldLeft
    · rcases newOrOld right cbId inRight with ⟨rightType, _⟩ | oldRight
      · exact leftType.trans rightType.symm
      · exact absurd (isNew ▸ oldRight) (fit.not_occurs_next right)
    · rcases newOrOld right cbId inRight with ⟨_, isNew⟩ | oldRight
      · exact absurd (isNew ▸ oldLeft) (fit.not_occurs_next left)
      · exact fit.oneType left right cbId oldLeft oldRight

theorem IdsFit.step {action : Action} (fit : IdsFit state)
    (effect : Effect env state action after) : IdsFit after := by
  cases effect with
  | rpcMessage message =>
      refine fit.keep rfl fun eventType cbId occurs => ?_
      rcases occurs with present | ⟨eventData, queued⟩
      · exact Or.inl present
      · rcases List.mem_cons.mp queued with same | old
        · cases same
        · exact Or.inr ⟨eventData, old⟩
  | eventMessage received => exact fit.eventMessage received
  | eventMessageFault received => exact fit.keep rfl fun _ _ occurs => occurs
  | work found worked =>
      refine fit.worked found (by rw [worked]) ?_
      intro eventType cbId eventData queued
      rcases List.mem_append.mp queued with new | old
      · exact absurd new (event_not_mem_next worked eventType cbId eventData)
      · exact List.mem_of_mem_eraseIdx old
  | workFault found worked =>
      refine fit.worked found (by rw [worked]) ?_
      intro eventType cbId eventData queued
      exact List.mem_of_mem_eraseIdx queued
  | registerRpc free => exact fit.keep rfl fun _ _ occurs => occurs
  | registerRpcTaken taken => exact fit
  | unregisterRpc name =>
      apply fit.keep (evtCbId_unregisterRpc state.server name)
      intro eventType cbId occurs
      rcases occurs with present | queued
      · rw [handlersAt_unregisterRpc] at present
        exact Or.inl present
      · exact Or.inr queued
  | @registerEventHandler eventType cb server registered =>
      have same : server = withHandler state.server eventType cb :=
        (registerEventHandler_eq_ok registered).2
      subst same
      exact fit.register eventType cb
  | registerEventHandlerFault failed => exact fit.keep rfl fun _ _ occurs => occurs
  | unregisterEventHandler walk =>
      apply fit.keep (evtCbId_unregisterEventHandler state.server _ _)
      intro eventType cbId occurs
      rcases occurs with present | queued
      · exact Or.inl (lookup_unregisterEventHandler present)
      · exact Or.inr queued

theorem idsFit_of_reachable (reachable : (machine env).Reachable state) : IdsFit state := by
  apply reachable.invariant IdsFit
  · have nowhere : ∀ eventType cbId, ¬ Occurs (machine env).init eventType cbId := by
      intro eventType cbId occurs
      rcases occurs with present | ⟨_, queued⟩
      · cases present
      · cases queued
    exact ⟨le_refl _, fun _ _ occurs => absurd occurs (nowhere _ _),
      fun _ _ _ occurs _ => absurd occurs (nowhere _ _)⟩
  · intro _ _ _ _ fit stepped
    exact fit.step (step_effect stepped).2

/-- The counter never goes back. -/
private theorem evtCbId_le {action : Action} (effect : Effect env state action after) :
    state.server.evtCbId ≤ after.server.evtCbId := by
  cases effect with
  | rpcMessage message => exact le_refl _
  | eventMessage received => exact le_refl _
  | eventMessageFault received => exact le_refl _
  | @work _ task _ _ _ _ found worked =>
      have kept : (workStep env state.server task).1.evtCbId = state.server.evtCbId :=
        evtCbId_workStep state.server task
      rw [worked] at kept
      exact le_of_eq kept.symm
  | @workFault _ task _ _ _ found worked =>
      have kept : (workStep env state.server task).1.evtCbId = state.server.evtCbId :=
        evtCbId_workStep state.server task
      rw [worked] at kept
      exact le_of_eq kept.symm
  | registerRpc free => exact le_refl _
  | registerRpcTaken taken => exact le_refl _
  | unregisterRpc name => exact le_of_eq (evtCbId_unregisterRpc state.server name).symm
  | registerEventHandler registered =>
      obtain ⟨_, same⟩ := registerEventHandler_eq_ok registered
      subst same
      show state.server.evtCbId ≤ state.server.evtCbId + 1
      omega
  | registerEventHandlerFault failed => exact le_refl _
  | unregisterEventHandler walk =>
      exact le_of_eq (evtCbId_unregisterEventHandler state.server _ _).symm

private theorem evtCbId_le_of_leads {later : State}
    (leads : (machine env).Leads Machine.always state later) :
    state.server.evtCbId ≤ later.server.evtCbId := by
  refine leads.invariant (fun between => state.server.evtCbId ≤ between.server.evtCbId)
    (le_refl _) ?_
  intro _ _ _ below _ stepped
  exact le_trans below (evtCbId_le (step_effect stepped).2)

/-- The action registers a handler and gives it the id. -/
def Allots (env : Env) (state : State) (action : Action) (cbId : Int) : Prop :=
  ∃ eventType cb server, action = .registerEventHandler eventType cb ∧
    registerEventHandler env state.server eventType cb = .ok server ∧ server.evtCbId = cbId

theorem Allots.eq_next {action : Action} {cbId : Int} (allots : Allots env state action cbId) :
    cbId = state.server.evtCbId + 1 := by
  obtain ⟨eventType, cb, server, _, registered, same⟩ := allots
  rw [← same, (registerEventHandler_eq_ok registered).2]

/-- What the server relies on about the ids of event handlers. -/
structure HandlerIds (env : Env) (state : State) : Prop where
  bounded : ∀ eventType cbId, Occurs state eventType cbId →
    1 ≤ cbId ∧ cbId ≤ state.server.evtCbId
  oneType : ∀ left right cbId, Occurs state left cbId → Occurs state right cbId → left = right
  /-- An id in use is not allotted from here on. -/
  usedOnce : ∀ eventType cbId later action, Occurs state eventType cbId →
    (machine env).Leads Machine.always state later → ¬ Allots env later action cbId
  /-- An id allotted here is not allotted later. -/
  allottedOnce : ∀ action cbId next later other, Allots env state action cbId →
    step env state action = some next →
      (machine env).Leads Machine.always next later → ¬ Allots env later other cbId
  /-- The assertion of `register_event_handler` holds, compiled in or not. -/
  registers : state.server.evtCbId ≠ intMax → ∀ eventType cb,
    (handlersAt state.server eventType).lookup (state.server.evtCbId + 1) = none ∧
      ∃ server, registerEventHandler env state.server eventType cb = .ok server
  anyOrder : ∀ cbId left right, left.Perm state.server.eventHandlerMap.keys →
    right.Perm state.server.eventHandlerMap.keys →
      unregisterEventHandler state.server left cbId =
        unregisterEventHandler state.server right cbId

theorem IdsFit.lookup_next (fit : IdsFit state) (eventType : Str) :
    (handlersAt state.server eventType).lookup (state.server.evtCbId + 1) = none := by
  by_contra present
  exact fit.not_occurs_next eventType (Or.inl (Option.isSome_iff_ne_none.mpr present))

/-- Registering fails by overflow only. -/
theorem IdsFit.registerEventHandler_eq (fit : IdsFit state)
    (room : state.server.evtCbId ≠ intMax) (eventType : Str) (cb : Handler) :
    registerEventHandler env state.server eventType cb =
      .ok (withHandler state.server eventType cb) := by
  cases registered : registerEventHandler env state.server eventType cb with
  | ok server =>
      rw [(registerEventHandler_eq_ok registered).2]
      rfl
  | error fault =>
      rcases registerEventHandler_eq_error registered with ⟨_, overflow⟩ | ⟨_, present⟩
      · exact absurd overflow room
      · rw [fit.lookup_next eventType] at present
        cases present

/-- The table is walked to the one event type that has the id. -/
theorem IdsFit.eventTypeOf_eq (fit : IdsFit state) {order : List Str} {eventType : Str}
    {cbId : Int} (walk : order.Perm state.server.eventHandlerMap.keys)
    (present : ((handlersAt state.server eventType).lookup cbId).isSome = true) :
    eventTypeOf state.server order cbId = eventType := by
  rcases eventTypeOf_cases cbId walk with ⟨_, missing⟩ | found
  · rw [missing eventType] at present
    cases present
  · exact fit.oneType _ _ cbId (Or.inl found) (Or.inl present)

theorem IdsFit.eventTypeOf_congr (fit : IdsFit state) {left right : List Str} {cbId : Int}
    (walkLeft : left.Perm state.server.eventHandlerMap.keys)
    (walkRight : right.Perm state.server.eventHandlerMap.keys) :
    eventTypeOf state.server left cbId = eventTypeOf state.server right cbId := by
  rcases eventTypeOf_cases cbId walkRight with ⟨noType, missing⟩ | found
  · rcases eventTypeOf_cases cbId walkLeft with ⟨alsoNone, _⟩ | found
    · exact alsoNone.trans noType.symm
    · rw [missing] at found
      cases found
  · exact fit.eventTypeOf_eq walkLeft found

/-- The ids of event handlers are kept apart in every run. -/
theorem handlerIds_of_reachable (reachable : (machine env).Reachable state) :
    HandlerIds env state := by
  have fit := idsFit_of_reachable reachable
  refine ⟨fit.bounded, fit.oneType, ?_, ?_, ?_, ?_⟩
  · intro eventType cbId later action occurs leads allots
    have inUse := (fit.bounded eventType cbId occurs).2
    have monotone := evtCbId_le_of_leads leads
    have next := allots.eq_next
    omega
  · intro action cbId next later other allots stepped leads again
    obtain ⟨eventType, cb, server, isRegister, registered, allotted⟩ := allots
    subst isRegister
    have reached : next.server.evtCbId = cbId := by
      have effect := (step_effect stepped).2
      cases effect with
      | registerEventHandler alsoRegistered =>
          have same := registered.symm.trans alsoRegistered
          cases same
          exact allotted
      | registerEventHandlerFault failed =>
          rw [registered] at failed
          cases failed
    have monotone := evtCbId_le_of_leads leads
    have next := again.eq_next
    omega
  · intro room eventType cb
    exact ⟨fit.lookup_next eventType, _, fit.registerEventHandler_eq room eventType cb⟩
  · intro cbId left right walkLeft walkRight
    have sameType : eventTypeOf state.server left cbId = eventTypeOf state.server right cbId :=
      fit.eventTypeOf_congr walkLeft walkRight
    unfold unregisterEventHandler
    rw [sameType]

/-- Unregistering the id just allotted gives back the table there was. -/
def RegisterUndone (env : Env) (server : MessageQueueServer) (eventType : Str)
    (cb : Handler) : Prop :=
  ∃ registered, registerEventHandler env server eventType cb = .ok registered ∧
    ∀ order, order.Perm registered.eventHandlerMap.keys →
      (unregisterEventHandler registered order registered.evtCbId).eventHandlerMap =
        server.eventHandlerMap

/-- The id is gone, all other handlers are as before, and no event type is
left without handlers. -/
structure Unregistered (server after : MessageQueueServer) (cbId : Int) : Prop where
  removed : ∀ eventType, (handlersAt after eventType).lookup cbId = none
  kept : ∀ eventType other, other ≠ cbId →
    (handlersAt after eventType).lookup other = (handlersAt server eventType).lookup other
  handled : ∀ eventType ∈ after.eventHandlerMap.keys,
    ∃ other, ((handlersAt after eventType).lookup other).isSome = true

/-- The event type has a handler besides the one with this id. -/
def HasOther (server : MessageQueueServer) (eventType : Str) (cbId : Int) : Prop :=
  ∃ other, other ≠ cbId ∧ ((handlersAt server eventType).lookup other).isSome = true

/-- Unless the id belongs to the empty event type, exactly its entry goes. -/
theorem IdsFit.lookup_unregister (fit : IdsFit state) {order : List Str} {cbId : Int}
    (walk : order.Perm state.server.eventHandlerMap.keys)
    (notEmptyType : (handlersAt state.server []).lookup cbId = none) (eventType : Str)
    (other : Int) :
    (handlersAt (unregisterEventHandler state.server order cbId) eventType).lookup other =
      if other = cbId then none else (handlersAt state.server eventType).lookup other := by
  by_cases noType : eventTypeOf state.server order cbId = []
  · rw [unregisterEventHandler_of_nil noType]
    have missing : (handlersAt state.server eventType).lookup cbId = none := by
      rcases eventTypeOf_cases cbId walk with ⟨_, missing⟩ | found
      · exact missing eventType
      · rw [noType, notEmptyType] at found
        cases found
    by_cases sameId : other = cbId
    · rw [if_pos sameId, sameId, missing]
    · rw [if_neg sameId]
  · rw [unregisterEventHandler_of_ne_nil noType, handlersAt_insert]
    by_cases sameType : eventType = eventTypeOf state.server order cbId
    · rw [if_pos sameType, OrderedMap.lookup_erase, sameType]
    · rw [if_neg sameType]
      by_cases sameId : other = cbId
      · rw [if_pos sameId, sameId]
        by_contra present
        have entry := Option.isSome_iff_ne_none.mpr present
        exact sameType (fit.eventTypeOf_eq walk entry).symm
      · rw [if_neg sameId]

/-- Unregistering neither adds nor removes an event type. -/
theorem mem_keys_unregister {server : MessageQueueServer} {order : List Str} {cbId : Int}
    (walk : order.Perm server.eventHandlerMap.keys) {eventType : Str} :
    eventType ∈ (unregisterEventHandler server order cbId).eventHandlerMap.keys ↔
      eventType ∈ server.eventHandlerMap.keys := by
  by_cases noType : eventTypeOf server order cbId = []
  · rw [unregisterEventHandler_of_nil noType]
  · rw [unregisterEventHandler_of_ne_nil noType]
    have known : eventTypeOf server order cbId ∈ server.eventHandlerMap.keys := by
      rcases eventTypeOf_cases cbId walk with ⟨isNil, _⟩ | found
      · exact absurd isNil noType
      · exact mem_keys_of_handlersAt found
    show eventType ∈ (server.eventHandlerMap.insert _ _).keys ↔ _
    rw [OrderedMap.mem_keys_insert]
    constructor
    · intro member
      rcases member with same | old
      · exact same ▸ known
      · exact old
    · intro old
      exact Or.inr old

theorem unregistered_iff (fit : IdsFit state) {order : List Str} (cbId : Int)
    (walk : order.Perm state.server.eventHandlerMap.keys) :
    Unregistered state.server (unregisterEventHandler state.server order cbId) cbId ↔
      (handlersAt state.server []).lookup cbId = none ∧
        ∀ eventType ∈ state.server.eventHandlerMap.keys,
          HasOther state.server eventType cbId := by
  constructor
  · intro unregistered
    have notEmptyType : (handlersAt state.server []).lookup cbId = none := by
      by_contra present
      have entry := Option.isSome_iff_ne_none.mpr present
      have isNil := fit.eventTypeOf_eq walk entry
      have gone := unregistered.removed []
      rw [unregisterEventHandler_of_nil isNil] at gone
      exact present gone
    refine ⟨notEmptyType, fun eventType known => ?_⟩
    obtain ⟨other, present⟩ :=
      unregistered.handled eventType ((mem_keys_unregister walk).mpr known)
    rw [fit.lookup_unregister walk notEmptyType] at present
    by_cases sameId : other = cbId
    · rw [if_pos sameId] at present
      cases present
    · rw [if_neg sameId] at present
      exact ⟨other, sameId, present⟩
  · intro condition
    have looked := fit.lookup_unregister walk condition.1
    constructor
    · intro eventType
      rw [looked, if_pos rfl]
    · intro eventType other different
      rw [looked, if_neg different]
    · intro eventType known
      obtain ⟨other, different, present⟩ :=
        condition.2 eventType ((mem_keys_unregister walk).mp known)
      refine ⟨other, ?_⟩
      rw [looked, if_neg different]
      exact present

/-- The id just allotted is found under its event type. -/
private theorem IdsFit.eventTypeOf_withHandler (fit : IdsFit state) {eventType : Str}
    {cb : Handler} {order : List Str}
    (walk : order.Perm (withHandler state.server eventType cb).eventHandlerMap.keys) :
    eventTypeOf (withHandler state.server eventType cb) order (state.server.evtCbId + 1) =
      eventType := by
  refine (fit.register eventType cb).eventTypeOf_eq walk ?_
  show ((handlersAt (withHandler state.server eventType cb) eventType).lookup _).isSome = true
  rw [lookup_withHandler, if_pos ⟨rfl, rfl⟩]
  rfl

theorem registerUndone_iff (fit : IdsFit state) (eventType : Str) (cb : Handler) :
    RegisterUndone env state.server eventType cb ↔
      state.server.evtCbId ≠ intMax ∧ eventType ≠ [] ∧
        eventType ∈ state.server.eventHandlerMap.keys := by
  constructor
  · intro undone
    obtain ⟨registered, succeeded, restores⟩ := undone
    obtain ⟨room, same⟩ := registerEventHandler_eq_ok succeeded
    have isNew : registered = withHandler state.server eventType cb := same
    subst isNew
    have walk := List.Perm.refl
      (withHandler state.server eventType cb).eventHandlerMap.keys
    have restored : (unregisterEventHandler (withHandler state.server eventType cb) _
        (state.server.evtCbId + 1)).eventHandlerMap = state.server.eventHandlerMap :=
      restores _ walk
    have found := fit.eventTypeOf_withHandler walk
    refine ⟨room, ?_, ?_⟩
    · intro isNil
      rw [unregisterEventHandler_of_nil (found.trans isNil)] at restored
      have entry := lookup_withHandler state.server eventType eventType cb
        (state.server.evtCbId + 1)
      rw [if_pos ⟨rfl, rfl⟩, handlersAt, restored] at entry
      have unused := fit.lookup_next eventType
      rw [handlersAt, entry] at unused
      cases unused
    · rw [← restored, mem_keys_unregister walk]
      exact OrderedMap.mem_keys_insert.mpr (Or.inl rfl)
  · intro condition
    obtain ⟨room, someType, known⟩ := condition
    refine ⟨_, fit.registerEventHandler_eq room eventType cb, fun order walk => ?_⟩
    have found := fit.eventTypeOf_withHandler walk
    have notNil : eventTypeOf (withHandler state.server eventType cb) order
        (state.server.evtCbId + 1) ≠ [] := by
      rw [found]
      exact someType
    have erased : (handlersAt (withHandler state.server eventType cb) eventType).erase
        (state.server.evtCbId + 1) = handlersAt state.server eventType := by
      apply OrderedMap.ext_lookup
      intro cbId
      rw [OrderedMap.lookup_erase, lookup_withHandler]
      by_cases isNew : cbId = state.server.evtCbId + 1
      · rw [if_pos isNew, isNew, fit.lookup_next]
      · rw [if_neg isNew, if_neg (fun both => isNew both.2)]
    have stored : state.server.eventHandlerMap.lookup eventType =
        some (handlersAt state.server eventType) := by
      obtain ⟨handlers, looked⟩ := Option.isSome_iff_exists.mp (OrderedMap.mem_keys_iff.mp known)
      rw [handlersAt, looked]
      rfl
    have rewritten := unregisterEventHandler_of_ne_nil notNil
    rw [found, erased] at rewritten
    apply OrderedMap.ext_lookup
    intro other
    show (unregisterEventHandler (withHandler state.server eventType cb) order
      (state.server.evtCbId + 1)).eventHandlerMap.lookup other = _
    rw [rewritten, OrderedMap.lookup_insert]
    by_cases sameType : other = eventType
    · rw [if_pos sameType, sameType, stored]
    · rw [if_neg sameType]
      exact OrderedMap.lookup_insert_of_ne _ _ sameType

/-- Unregistering undoes registering, and removes what it should, exactly
under these conditions. -/
theorem unregistering_iff (reachable : (machine env).Reachable state) :
    (∀ eventType cb, RegisterUndone env state.server eventType cb ↔
      state.server.evtCbId ≠ intMax ∧ eventType ≠ [] ∧
        eventType ∈ state.server.eventHandlerMap.keys) ∧
    ∀ order cbId, order.Perm state.server.eventHandlerMap.keys →
      (Unregistered state.server (unregisterEventHandler state.server order cbId) cbId ↔
        (handlersAt state.server []).lookup cbId = none ∧
          ∀ eventType ∈ state.server.eventHandlerMap.keys,
            HasOther state.server eventType cbId) := by
  have fit := idsFit_of_reachable reachable
  constructor
  · intro eventType cb
    exact registerUndone_iff fit eventType cb
  · intro order cbId walk
    exact unregistered_iff fit cbId walk

/-- Two handlers of one event type. -/
def twoHandlers : List Action :=
  [.registerEventHandler (ascii "e") onEvent, .registerEventHandler (ascii "e") onEvent]

private theorem twoHandlers_run :
    ∃ state : State, (machine ⟨codec, false⟩).Run Machine.always twoHandlers state ∧
      (state.server.evtCbId = 2 ∧ state.server.eventHandlerMap.keys = [ascii "e"]) ∧
        ((handlersAt state.server []).lookup 1).isNone = true ∧
          ((handlersAt state.server (ascii "e")).lookup 2).isSome = true := by
  have allowed : ∀ state, ∀ action ∈ twoHandlers, (Machine.always : State → Action → Prop)
      state action := fun _ _ _ => trivial
  have executed : (((machine ⟨codec, false⟩).exec twoHandlers
      (machine ⟨codec, false⟩).init).any fun (state : State) =>
        (decide (state.server.evtCbId = 2) &&
            decide (state.server.eventHandlerMap.keys = [ascii "e"])) &&
          (((handlersAt state.server []).lookup 1).isNone &&
            ((handlersAt state.server (ascii "e")).lookup 2).isSome)) = true := by
    decide +kernel
  obtain ⟨state, run, tested⟩ := Machine.Run.of_exec_any allowed executed
  simp only [Bool.and_eq_true, decide_eq_true_eq] at tested
  exact ⟨state, run, tested⟩

theorem handlerIds_of_reachable_twoHandlers :
    ∃ state : State, state.server.evtCbId = 2 ∧ HandlerIds ⟨codec, false⟩ state := by
  obtain ⟨state, run, counted, _⟩ := twoHandlers_run
  exact ⟨state, counted.1, handlerIds_of_reachable run.reachable⟩

theorem unregistering_iff_twoHandlers :
    ∃ state : State, state.server.evtCbId = 2 ∧
      RegisterUndone ⟨codec, false⟩ state.server (ascii "e") onEvent ∧
        Unregistered state.server (unregisterEventHandler state.server [ascii "e"] 1) 1 := by
  obtain ⟨state, run, ⟨counted, types⟩, notEmptyType, second⟩ := twoHandlers_run
  have conditions := unregistering_iff run.reachable
  have room : state.server.evtCbId ≠ intMax := by
    rw [counted]
    decide
  refine ⟨state, counted, (conditions.1 _ _).mpr ⟨room, by decide, ?_⟩,
    (conditions.2 _ _ ?_).mpr ⟨Option.isNone_iff_eq_none.mp notEmptyType, ?_⟩⟩
  · rw [types]
    exact List.mem_singleton.mpr rfl
  · rw [types]
  · intro eventType known
    rw [types, List.mem_singleton] at known
    exact ⟨2, by decide, known ▸ second⟩

/-- The event type of a handler that is gone stays behind, without handlers. -/
theorem not_unregistering_firstHandler :
    ¬ ∀ (env : Env) (state : State), (machine env).Reachable state →
      (∀ eventType cb, RegisterUndone env state.server eventType cb) ∧
        ∀ order cbId, order.Perm state.server.eventHandlerMap.keys →
          Unregistered state.server (unregisterEventHandler state.server order cbId) cbId := by
  intro claimed
  have start := Machine.Reachable.start (machine ⟨codec, false⟩)
  have undone := (claimed _ _ start).1 (ascii "e") onEvent
  obtain ⟨registered, succeeded, restores⟩ := undone
  obtain ⟨_, same⟩ := registerEventHandler_eq_ok succeeded
  subst same
  have restored := congrArg OrderedMap.keys (restores _ (List.Perm.refl _))
  revert restored
  decide +kernel

end Server

end Ccmqsrv
