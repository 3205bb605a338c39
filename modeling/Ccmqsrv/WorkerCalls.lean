import Ccmqsrv.ReplyOrigin

/-!
# The calls of workers

A step of a worker records the calls of registered functions that it makes.  It
makes one call or none: the worker of a request calls the function of its
method, that of an event the handler with its id, each with what its arguments
convert to.  A worker that gets past its call has made it, and what the call
gave decides what the caller reads in the reply.
-/

namespace Ccmqsrv

open Foundations

/-- The function is called on what the arguments convert to. -/
def Invocation.IsCall (invocation : Invocation) (f : Handler) (data : List Any) : Prop :=
  ∃ args, getTuple f.params data = .ok args ∧ invocation = { f, args, returned := f.func args }

/-- The worker calls the function that the tables have for it. -/
def Task.Calls (server : MessageQueueServer) : Task → Invocation → Prop
  | .rpcCall _ meth args, invocation =>
      ∃ f, server.rpcFuncMap.lookup meth = some (some f) ∧ invocation.IsCall f args
  | .event eventType cbId eventData, invocation =>
      ∃ f, (handlersAt server eventType).lookup cbId = some (some f) ∧
        invocation.IsCall f [.string eventType, eventData]
  | .rpc _, _ => False
  | .rpcReply _ _, _ => False

/-- What a caller gets when the function gives this.  An exception that the
worker does not catch sends nothing back. -/
def conveyed : Except Exn Returned → Option (Cpp Json)
  | .ok value => some (.ok value.document.scrub)
  | .error (.runtimeError text) =>
      some (if cString text = [] then .ok .null else throwing (.runtimeError (cString text)))
  | .error _ => none

variable {env : Env} {server : MessageQueueServer} {task : Task} {message : Message} {res : Res}

section Calls

private theorem callFunction_calls {f : Handler} {data : List Any} {args : Tuple f.params}
    (converted : getTuple f.params data = .ok args) :
    (callFunction env (some f) res data).calls = [{ f, args, returned := f.func args }] := by
  show (callproxy env f res data).calls = _
  rw [callproxy_of_args converted]

/-- A function is called once or not at all. -/
private theorem callFunction_cases (function : Function) (data : List Any) :
    (callFunction env function res data).calls = [] ∨
      ∃ f invocation, function = some f ∧ invocation.IsCall f data ∧
        (callFunction env function res data).calls = [invocation] := by
  cases function with
  | none => exact Or.inl rfl
  | some f =>
      cases converted : getTuple f.params data with
      | ok args => exact Or.inr ⟨f, _, rfl, ⟨args, converted, rfl⟩, callFunction_calls converted⟩
      | error fault =>
          refine Or.inl ?_
          show (callproxy env f res data).calls = _
          rw [callproxy_of_error converted]

/-- A step of a worker makes no call, or that of the function that the tables
have for the worker. -/
theorem workStep_calls (env : Env) (server : MessageQueueServer) (task : Task) :
    (workStep env server task).2.calls = [] ∨
      ∃ invocation, (workStep env server task).2.calls = [invocation] ∧
        task.Calls server invocation := by
  cases task with
  | rpc message => exact Or.inl rfl
  | rpcReply message res => exact Or.inl rfl
  | rpcCall message meth args =>
      cases found : server.rpcFuncMap.lookup meth with
      | none =>
          refine Or.inl ?_
          rw [workStep, rpcCall, functionAt_of_lookup_none found]
          rfl
      | some function =>
          rw [workStep, rpcCall_of_lookup found]
          rcases callFunction_cases function args with nothing | ⟨f, invocation, rfl, isCall, same⟩
          · exact Or.inl nothing
          · exact Or.inr ⟨invocation, same, f, found, isCall⟩
  | event eventType cbId eventData =>
      cases found : (handlersAt server eventType).lookup cbId with
      | none =>
          refine Or.inl ?_
          rw [workStep, eventWorker, functionAt_of_lookup_none found]
          rfl
      | some function =>
          rw [workStep, eventWorker_of_lookup found]
          rcases callFunction_cases function [.string eventType, eventData] with
            nothing | ⟨f, invocation, rfl, isCall, same⟩
          · exact Or.inl nothing
          · exact Or.inr ⟨invocation, same, f, found, isCall⟩

/-- A worker that gets past the call of its handler has made it. -/
theorem workStep_event_calls (lawful : env.json.Lawful) {eventType : Str} {cbId : Int}
    {eventData : Any} {left : List Task × List Envelope}
    (done : (workStep env server (.event eventType cbId eventData)).2.outcome = .ok left) :
    ∃ invocation, (workStep env server (.event eventType cbId eventData)).2.calls =
      [invocation] := by
  obtain ⟨_, ended, _⟩ := bind_eq_ok.mp done
  have caught : (eventWorker env server eventType cbId eventData).2.outcome = .ok _ := ended
  cases found : (handlersAt server eventType).lookup cbId with
  | none =>
      rw [eventWorker, functionAt_of_lookup_none found] at caught
      cases caught
  | some function =>
      rw [eventWorker_of_lookup found] at caught
      rw [workStep, eventWorker_of_lookup found]
      cases function with
      | none => cases caught
      | some f =>
          obtain ⟨args, converted, _⟩ := (eventCatch_callFunction lawful).mp caught
          exact ⟨_, callFunction_calls converted⟩

/-- A worker that gets past the call of its function has made it, and has what
came of it. -/
theorem rpcCall_calls (lawful : env.json.Lawful) {meth : Str} {args : List Any}
    (called : (rpcCall env server message meth args).2.outcome = .ok res) :
    ∃ invocation, (rpcCall env server message meth args).2.calls = [invocation] ∧
      Outcome env message res invocation.returned := by
  obtain ⟨f, registered, caught⟩ := rpcCall_eq_ok called
  obtain ⟨tuple, converted, _, outcome⟩ := call_eq_ok lawful caught
  refine ⟨{ f, args := tuple, returned := f.func tuple }, ?_, outcome⟩
  rw [rpcCall_of_lookup registered]
  exact callFunction_calls converted

end Calls

/-- The caller reads from the reply what the function has given. -/
theorem Outcome.conveyed_eq (lawful : env.json.Lawful) {result : Except Exn Returned}
    {envelope : Envelope} (outcome : Outcome env message res result)
    (sent : sendReply env res = .ok envelope) :
    conveyed result = some (callOutcome env envelope.body) := by
  have read : ∀ {document : Json}, res.Answers env message document →
      callOutcome env envelope.body =
        if res.error = [] then .ok document else throwing (.runtimeError res.error) := by
    intro document answers
    obtain ⟨_, _, noZero, parsed⟩ := sendReply_eq_ok lawful answers sent
    rw [← cString_eq_self noZero] at parsed
    exact callOutcome_reply lawful parsed
  cases outcome with
  | returned noError answers =>
      rw [read answers, if_pos noError]
      rfl
  | failed errorEq answers =>
      rw [read answers, errorEq]
      rfl

end Ccmqsrv
