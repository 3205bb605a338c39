import Ccmqsrv.Server
import Ccmqsrv.Foundations.JsonCodec

/-!
# The tables hold the live registrations

What is registered after a run is a matter of the registration calls alone:
`Registrations` replays them without looking at messages or workers.  The
tables of the server agree with this replay as long as every worker that calls
a function still finds it, and no handler of the empty event type is
unregistered.
-/

namespace Ccmqsrv

open Foundations

namespace Server

/-- The registrations that are in force, by name and by handler id. -/
structure Registrations where
  allotted : Int := 0
  rpc : Str → Option Handler := fun _ => none
  event : Int → Option (Str × Handler) := fun _ => none

/-- What each registration call means.  A name that is taken and an exhausted
id counter register nothing. -/
def Registrations.apply (live : Registrations) : Action → Registrations
  | .registerRpc name func =>
      if (live.rpc name).isSome then live
      else { live with rpc := Function.update live.rpc name (some func) }
  | .unregisterRpc name => { live with rpc := Function.update live.rpc name none }
  | .registerEventHandler eventType cb =>
      if live.allotted = intMax then live
      else { live with
        allotted := live.allotted + 1
        event := Function.update live.event (live.allotted + 1) (some (eventType, cb)) }
  | .unregisterEventHandler _ cbId =>
      { live with event := Function.update live.event cbId none }
  | .rpcMessage _ => live
  | .eventMessage _ => live
  | .work _ => live

/-- The registrations in force after a run. -/
def registrations (trace : List Action) : Registrations :=
  trace.foldl Registrations.apply {}

/-- Each entry of the tables is a function put there by a registration call
and not unregistered since. -/
def EntriesRegistered (live : Registrations) (server : MessageQueueServer) : Prop :=
  (∀ name function, server.rpcFuncMap.lookup name = some function →
    ∃ func, function = some func ∧ live.rpc name = some func) ∧
  ∀ eventType cbId function, (handlersAt server eventType).lookup cbId = some function →
    ∃ cb, function = some cb ∧ live.event cbId = some (eventType, cb)

/-- The function a worker calls in its next step, if it calls one, is a
registered one. -/
def CallsRegistered (live : Registrations) (server : MessageQueueServer) : Task → Prop
  | .rpcCall _ meth _ =>
      ∃ func, (functionAt server.rpcFuncMap meth).1 = some func ∧ live.rpc meth = some func
  | .event eventType cbId _ =>
      ∃ cb, (functionAt (handlersAt server eventType) cbId).1 = some cb ∧
        live.event cbId = some (eventType, cb)
  | .rpc _ => True
  | .rpcReply _ _ => True

/-- The worker's `operator[]` finds an entry. -/
def Finds (server : MessageQueueServer) : Task → Prop
  | .rpcCall _ meth _ => (server.rpcFuncMap.lookup meth).isSome = true
  | .event eventType cbId _ => ((handlersAt server eventType).lookup cbId).isSome = true
  | .rpc _ => True
  | .rpcReply _ _ => True

/-- Workers find what they look up, and no handler of the empty event type is
unregistered. -/
def LookupsFind (state : State) : Action → Prop
  | .work index => ∀ task, state.tasks[index]? = some task → Finds state.server task
  | .unregisterEventHandler _ cbId => (handlersAt state.server []).lookup cbId = none
  | _ => True

/-- The tables are exactly the registrations in force. -/
structure Agree (live : Registrations) (server : MessageQueueServer) : Prop where
  allotted_eq : server.evtCbId = live.allotted
  rpc_eq : ∀ name, server.rpcFuncMap.lookup name = (live.rpc name).map some
  event_iff : ∀ eventType cbId function,
    (handlersAt server eventType).lookup cbId = some function ↔
      ∃ cb, function = some cb ∧ live.event cbId = some (eventType, cb)
  bounded : ∀ cbId registration, live.event cbId = some registration → cbId ≤ live.allotted

variable {env : Env} {live : Registrations} {server : MessageQueueServer}

theorem Agree.entriesRegistered (agree : Agree live server) : EntriesRegistered live server := by
  constructor
  · intro name function found
    rw [agree.rpc_eq, Option.map_eq_some_iff] at found
    obtain ⟨func, registered, same⟩ := found
    exact ⟨func, same.symm, registered⟩
  · intro eventType cbId function found
    exact (agree.event_iff eventType cbId function).mp found

theorem Agree.callsRegistered (agree : Agree live server) {task : Task}
    (finds : Finds server task) : CallsRegistered live server task := by
  cases task with
  | rpcCall message meth args =>
      obtain ⟨function, found⟩ := Option.isSome_iff_exists.mp finds
      obtain ⟨func, same, registered⟩ := agree.entriesRegistered.1 meth function found
      refine ⟨func, ?_, registered⟩
      rw [functionAt_of_lookup found]
      exact same
  | event eventType cbId eventData =>
      obtain ⟨function, found⟩ := Option.isSome_iff_exists.mp finds
      obtain ⟨cb, same, registered⟩ :=
        agree.entriesRegistered.2 eventType cbId function found
      refine ⟨cb, ?_, registered⟩
      rw [functionAt_of_lookup found]
      exact same
  | rpc message => trivial
  | rpcReply message res => trivial

/-- A worker that finds its function leaves the tables as they are. -/
theorem workStep_server (env : Env) {task : Task} (finds : Finds server task) :
    (workStep env server task).1 = server := by
  cases task with
  | rpc message => rfl
  | rpcReply message res => rfl
  | rpcCall message meth args =>
      obtain ⟨function, found⟩ := Option.isSome_iff_exists.mp finds
      rw [workStep, rpcCall_of_lookup found]
  | event eventType cbId eventData =>
      obtain ⟨function, found⟩ := Option.isSome_iff_exists.mp finds
      rw [workStep, eventWorker_of_lookup found]

private theorem Agree.afterRegisterRpc (agree : Agree live server) {name : Str} {func : Handler}
    (free : server.rpcFuncMap.lookup name = none) :
    Agree (live.apply (.registerRpc name func))
      { server with rpcFuncMap := server.rpcFuncMap.insert name (some func) } := by
  have unused : ¬ (live.rpc name).isSome = true := by
    rw [agree.rpc_eq, Option.map_eq_none_iff] at free
    simp [free]
  have applied : live.apply (.registerRpc name func) =
      { live with rpc := Function.update live.rpc name (some func) } := if_neg unused
  rw [applied]
  refine ⟨agree.allotted_eq, fun other => ?_, agree.event_iff, agree.bounded⟩
  show (server.rpcFuncMap.insert name (some func)).lookup other =
    (Function.update live.rpc name (some func) other).map some
  rw [OrderedMap.lookup_insert, agree.rpc_eq]
  by_cases same : other = name
  · rw [if_pos same, same, Function.update_self]
    rfl
  · rw [if_neg same, Function.update_of_ne same]

private theorem Agree.afterRegisterRpcTaken (agree : Agree live server) {name : Str}
    {func : Handler} {function : Function}
    (taken : server.rpcFuncMap.lookup name = some function) :
    Agree (live.apply (.registerRpc name func)) server := by
  have used : (live.rpc name).isSome = true := by
    rw [agree.rpc_eq, Option.map_eq_some_iff] at taken
    obtain ⟨registered, found, _⟩ := taken
    rw [found]
    rfl
  have applied : live.apply (.registerRpc name func) = live := if_pos used
  rw [applied]
  exact agree

private theorem Agree.afterUnregisterRpc (agree : Agree live server) (name : Str) :
    Agree (live.apply (.unregisterRpc name)) (unregisterRpc server name) := by
  have erased : (unregisterRpc server name).rpcFuncMap.lookup name = none := by
    unfold unregisterRpc
    by_cases present : (server.rpcFuncMap.lookup name).isSome = true
    · rw [if_pos present]
      exact OrderedMap.lookup_erase_self _ _
    · rw [if_neg present]
      simpa using present
  have others : ∀ other, other ≠ name → (unregisterRpc server name).rpcFuncMap.lookup other =
      server.rpcFuncMap.lookup other := by
    intro other different
    unfold unregisterRpc
    split
    · exact OrderedMap.lookup_erase_of_ne _ different
    · rfl
  refine ⟨?_, fun other => ?_, fun eventType cbId function => ?_, agree.bounded⟩
  · rw [evtCbId_unregisterRpc]
    exact agree.allotted_eq
  · show _ = (Function.update live.rpc name none other).map some
    by_cases same : other = name
    · rw [same, erased, Function.update_self]
      rfl
    · rw [others other same, Function.update_of_ne same, agree.rpc_eq]
  · rw [handlersAt_unregisterRpc]
    exact agree.event_iff eventType cbId function

private theorem Agree.afterRegisterEventHandler (agree : Agree live server) {eventType : Str}
    {cb : Handler} {after : MessageQueueServer}
    (registered : registerEventHandler env server eventType cb = .ok after) :
    Agree (live.apply (.registerEventHandler eventType cb)) after := by
  obtain ⟨noOverflow, same⟩ := registerEventHandler_eq_ok registered
  subst same
  have room : ¬ live.allotted = intMax := by
    rw [← agree.allotted_eq]
    exact noOverflow
  have applied : live.apply (.registerEventHandler eventType cb) =
      { live with
        allotted := live.allotted + 1
        event := Function.update live.event (live.allotted + 1) (some (eventType, cb)) } :=
    if_neg room
  rw [applied]
  refine ⟨congrArg (· + 1) agree.allotted_eq, agree.rpc_eq, ?_, ?_⟩
  · intro other cbId function
    have rebuilt : handlersAt
        { server with
          evtCbId := server.evtCbId + 1
          eventHandlerMap := server.eventHandlerMap.insert eventType
            ((handlersAt server eventType).insert (server.evtCbId + 1) (some cb)) } other =
          if other = eventType then
            (handlersAt server eventType).insert (server.evtCbId + 1) (some cb)
          else handlersAt server other := handlersAt_insert server eventType other _
    rw [rebuilt, agree.allotted_eq]
    show _ ↔ ∃ cb', _ ∧ Function.update live.event (live.allotted + 1)
      (some (eventType, cb)) cbId = _
    by_cases isNew : cbId = live.allotted + 1
    · subst isNew
      have unused : ∀ someType, (handlersAt server someType).lookup (live.allotted + 1) = none := by
        intro someType
        cases looked : (handlersAt server someType).lookup (live.allotted + 1) with
        | none => rfl
        | some old =>
            obtain ⟨_, _, registered⟩ := (agree.event_iff _ _ _).mp looked
            have bound := agree.bounded _ _ registered
            omega
      by_cases sameType : other = eventType
      · subst sameType
        rw [if_pos rfl, OrderedMap.lookup_insert_self, Function.update_self]
        simp [eq_comm]
      · rw [if_neg sameType, unused, Function.update_self]
        simp [Ne.symm sameType]
    · rw [Function.update_of_ne isNew, ← agree.event_iff]
      by_cases sameType : other = eventType
      · subst sameType
        rw [if_pos rfl, OrderedMap.lookup_insert_of_ne _ _ isNew]
      · rw [if_neg sameType]
  · intro cbId registration found
    by_cases isNew : cbId = live.allotted + 1
    · exact le_of_eq isNew
    · have old : live.event cbId = some registration := by
        simpa [Function.update_of_ne isNew] using found
      have bound := agree.bounded cbId registration old
      show cbId ≤ live.allotted + 1
      omega

private theorem Agree.afterRegisterEventHandlerFault (agree : Agree live server) {eventType : Str}
    {cb : Handler} {fault : Fault}
    (failed : registerEventHandler env server eventType cb = .error fault) :
    Agree (live.apply (.registerEventHandler eventType cb)) server := by
  rcases registerEventHandler_eq_error failed with ⟨_, overflow⟩ | ⟨_, present⟩
  · have full : live.allotted = intMax := agree.allotted_eq.symm.trans overflow
    have applied : live.apply (.registerEventHandler eventType cb) = live := if_pos full
    rw [applied]
    exact agree
  · obtain ⟨function, found⟩ := Option.isSome_iff_exists.mp present
    obtain ⟨_, _, registered⟩ := (agree.event_iff _ _ _).mp found
    have bound := agree.bounded _ _ registered
    rw [agree.allotted_eq] at bound
    omega

/-- The loop of `unregister_event_handler` stops at the event type of the
handler, in whatever order it walks the table. -/
theorem Agree.eventTypeOf_eq (agree : Agree live server) {order : List Str} {cbId : Int}
    (walk : order.Perm server.eventHandlerMap.keys) :
    (live.event cbId = none ∧ eventTypeOf server order cbId = []) ∨
      ∃ cb, live.event cbId = some (eventTypeOf server order cbId, cb) := by
  rcases eventTypeOf_cases cbId walk with ⟨noType, missing⟩ | present
  · refine Or.inl ⟨?_, noType⟩
    cases registered : live.event cbId with
    | none => rfl
    | some registration =>
        obtain ⟨eventType, cb⟩ := registration
        have entry := (agree.event_iff eventType cbId (some cb)).mpr ⟨cb, rfl, registered⟩
        rw [missing eventType] at entry
        cases entry
  · obtain ⟨function, entry⟩ := Option.isSome_iff_exists.mp present
    obtain ⟨cb, _, registered⟩ := (agree.event_iff _ cbId function).mp entry
    exact Or.inr ⟨cb, registered⟩

private theorem Agree.afterUnregisterEventHandler (agree : Agree live server) {order : List Str}
    {cbId : Int} (walk : order.Perm server.eventHandlerMap.keys)
    (notEmptyType : (handlersAt server []).lookup cbId = none) :
    Agree (live.apply (.unregisterEventHandler order cbId))
      (unregisterEventHandler server order cbId) := by
  rcases agree.eventTypeOf_eq walk with ⟨unregistered, noType⟩ | ⟨cb, registered⟩
  · have same : Function.update live.event cbId none = live.event := by
      rw [← unregistered, Function.update_eq_self]
    have applied : live.apply (.unregisterEventHandler order cbId) = live := by
      show { live with event := Function.update live.event cbId none } = live
      rw [same]
    rw [unregisterEventHandler_of_nil noType, applied]
    exact agree
  · have someType : eventTypeOf server order cbId ≠ [] := by
      intro isNil
      rw [isNil] at registered
      have entry := (agree.event_iff [] cbId (some cb)).mpr ⟨cb, rfl, registered⟩
      rw [notEmptyType] at entry
      cases entry
    rw [unregisterEventHandler_of_ne_nil someType]
    refine ⟨agree.allotted_eq, agree.rpc_eq, ?_, ?_⟩
    · intro other otherId function
      rw [handlersAt_insert]
      show _ ↔ ∃ cb, _ ∧ Function.update live.event cbId none otherId = _
      by_cases sameId : otherId = cbId
      · subst sameId
        rw [Function.update_self]
        by_cases sameType : other = eventTypeOf server order otherId
        · rw [if_pos sameType, OrderedMap.lookup_erase_self]
          simp
        · rw [if_neg sameType, agree.event_iff, registered]
          simp [Ne.symm sameType]
      · rw [Function.update_of_ne sameId, ← agree.event_iff]
        by_cases sameType : other = eventTypeOf server order cbId
        · rw [if_pos sameType, OrderedMap.lookup_erase_of_ne _ sameId, ← sameType]
        · rw [if_neg sameType]
    · intro otherId registration found
      have old : live.event otherId = some registration := by
        by_cases sameId : otherId = cbId
        · simp [sameId, Registrations.apply] at found
        · simpa [Registrations.apply, Function.update_of_ne sameId] using found
      exact agree.bounded otherId registration old

theorem Agree.step {state after : State} {action : Action}
    (agree : Agree live state.server) (finds : LookupsFind state action)
    (effect : Effect env state action after) : Agree (live.apply action) after.server := by
  cases effect with
  | rpcMessage message => exact agree
  | eventMessage received => exact agree
  | eventMessageFault received => exact agree
  | work found worked =>
      rename_i server _ _ _
      have kept := workStep_server env (finds _ found)
      rw [worked] at kept
      have same : server = state.server := kept
      subst same
      exact agree
  | workFault found worked =>
      rename_i server _ _
      have kept := workStep_server env (finds _ found)
      rw [worked] at kept
      have same : server = state.server := kept
      subst same
      exact agree
  | registerRpc free => exact agree.afterRegisterRpc free
  | registerRpcTaken taken => exact agree.afterRegisterRpcTaken taken
  | unregisterRpc name => exact agree.afterUnregisterRpc name
  | registerEventHandler registered => exact agree.afterRegisterEventHandler registered
  | registerEventHandlerFault failed => exact agree.afterRegisterEventHandlerFault failed
  | unregisterEventHandler walk => exact agree.afterUnregisterEventHandler walk finds

theorem agree_of_run {trace : List Action} {state : State}
    (run : (machine env).Run LookupsFind trace state) :
    Agree (registrations trace) state.server := by
  refine run.invariant (fun trace state => Agree (registrations trace) state.server) ?_ ?_
  · refine ⟨rfl, fun _ => rfl, ?_, ?_⟩
    · intro eventType cbId function
      constructor
      · intro found
        cases found
      · rintro ⟨_, _, registered⟩
        cases registered
    · intro _ _ registered
      cases registered
  · intro _ _ _ _ _ agree finds stepped
    unfold registrations at *
    rw [List.foldl_append]
    exact agree.step finds (step_effect stepped).2

/-- In runs whose lookups find their entries, the tables hold live
registrations only, and workers call nothing else. -/
theorem entriesRegistered_of_run {trace : List Action} {state : State}
    (run : (machine env).Run LookupsFind trace state) :
    EntriesRegistered (registrations trace) state.server ∧
      ∀ index task, LookupsFind state (.work index) → state.tasks[index]? = some task →
        CallsRegistered (registrations trace) state.server task := by
  have agree := agree_of_run run
  refine ⟨agree.entriesRegistered, ?_⟩
  intro index task finds found
  exact agree.callsRegistered (finds task found)

def onEvent : Handler where
  params := [.string, .int]
  func _ := .ok .void

/-- Registering a handler, receiving an event for it, and running its worker. -/
def handledTrace : List Action :=
  [.registerEventHandler (ascii "e") onEvent, .eventMessage (ascii "[\"e\",1]")]

/-- The same, with the handler unregistered before the worker runs. -/
def staleTrace : List Action :=
  handledTrace ++ [.unregisterEventHandler [ascii "e"] 1, .work 0]

theorem entriesRegistered_handled :
    ∃ state, EntriesRegistered (registrations handledTrace) state.server ∧
      ∀ index task, LookupsFind state (.work index) → state.tasks[index]? = some task →
        CallsRegistered (registrations handledTrace) state.server task := by
  have allowed : ∀ state, ∀ action ∈ handledTrace, LookupsFind state action := by
    intro state action member
    simp only [handledTrace, List.mem_cons, List.not_mem_nil, or_false] at member
    rcases member with rfl | rfl
    · trivial
    · trivial
  have executed : (((machine ⟨codec, false⟩).exec handledTrace
      (machine ⟨codec, false⟩).init).any fun _ => true) = true := by
    decide +kernel
  obtain ⟨state, run, _⟩ := Machine.Run.of_exec_any allowed executed
  exact ⟨state, entriesRegistered_of_run run⟩

/-- The worker of an event puts an empty function into the table when its
handler was unregistered in the meantime. -/
theorem not_entriesRegistered_stale :
    ¬ ∀ (trace : List Action) (state : State),
      (machine ⟨codec, false⟩).Run Machine.always trace state →
        EntriesRegistered (registrations trace) state.server := by
  intro claimed
  have emptied : (((machine ⟨codec, false⟩).exec staleTrace
      (machine ⟨codec, false⟩).init).any fun state =>
        ((handlersAt state.server (ascii "e")).lookup 1).any Option.isNone) = true := by
    decide +kernel
  have allowed : ∀ state, ∀ action ∈ staleTrace, (Machine.always : State → Action → Prop)
      state action := fun _ _ _ => trivial
  obtain ⟨state, run, found⟩ := Machine.Run.of_exec_any allowed emptied
  cases looked : (handlersAt state.server (ascii "e")).lookup 1 with
  | none =>
      rw [looked] at found
      cases found
  | some function =>
      obtain ⟨cb, same, _⟩ := (claimed _ state run).2 _ _ _ looked
      rw [looked, same] at found
      cases found

end Server

end Ccmqsrv
