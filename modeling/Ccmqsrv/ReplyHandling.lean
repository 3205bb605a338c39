import Ccmqsrv.Client
import Ccmqsrv.MessageGrammar

/-!
# One reply in the event loop

`on_response` is a lookup, a decoding that can throw, and a second lookup that
inserts.  Here it runs from beginning to end with no other thread coming in, on
any table of pending requests and any reply.

It does not look at the id in the body, and it catches nothing.  A reply is
therefore handled as it should be in two cases only: the correlation id is not
in the table, or the body is a reply to that very id.
-/

namespace Ccmqsrv

open Foundations

namespace Client

/-- `req_events` -/
abbrev PendingTable := OrderedMap Str (Option (AsyncResult Thread))

/-- `set` from its mutex to its end. -/
def setTo (object : AsyncResult Thread) (result : Str × Str) (notified : Option Thread) :
    AsyncResult Thread where
  mutex := object.mutex
  condVar := match notified with
    | some thread => object.condVar.leave thread
    | none => object.condVar
  done := true
  result

/-- What `on_response` leaves: the table, the results it set, and how it
returned to the event loop. -/
structure LoopReturn where
  reqEvents : PendingTable
  stored : List (Str × (Str × Str))
  outcome : Cpp Unit

/-- `on_response`.  An entry may be a null pointer. -/
def onResponse (env : Env) (reqEvents : PendingTable) (response : Response)
    (notified : Option Thread) : LoopReturn :=
  match reqEvents.lookup response.correlationID with
  | none => { reqEvents, stored := [], outcome := .ok () }
  | some entry =>
      match decodeResponse env response.body with
      | .error fault => { reqEvents, stored := [], outcome := .error fault }
      | .ok result =>
          match entry with
          | none => { reqEvents, stored := [], outcome := .error .undefined }
          | some object =>
              { reqEvents :=
                  reqEvents.insert response.correlationID (some (setTo object result notified))
                stored := [(response.correlationID, result)]
                outcome := .ok () }

/-- The body is the reply to the request with this id. -/
def RepliesTo (env : Env) (body id : Str) (error result : Json) : Prop :=
  env.json.parse (cString body) = some (.array [.int 1, .string id, error, result])

/-- The correlation id is a pending call and the body is the reply to it. -/
def Answers (env : Env) (reqEvents : PendingTable) (response : Response) : Prop :=
  (∃ object, reqEvents.lookup response.correlationID = some (some object)) ∧
    ∃ error result, RepliesTo env response.body response.correlationID error result

/-- A reply to a pending call sets exactly its result, any other one does
nothing, and the event loop goes on. -/
structure HandlesResponse (env : Env) (reqEvents : PendingTable) (response : Response)
    (notified : Option Thread) : Prop where
  answered : ∀ object error result,
    reqEvents.lookup response.correlationID = some (some object) →
      RepliesTo env response.body response.correlationID error result →
        ∃ text, env.json.dump result = some text ∧
          (onResponse env reqEvents response notified).stored =
              [(response.correlationID, (copyError error [], text))] ∧
            (onResponse env reqEvents response notified).reqEvents =
              reqEvents.insert response.correlationID
                (some (setTo object (copyError error [], text) notified))
  otherwise : ¬ Answers env reqEvents response →
    (onResponse env reqEvents response notified).stored = [] ∧
      (onResponse env reqEvents response notified).reqEvents = reqEvents
  returns : (onResponse env reqEvents response notified).outcome = .ok ()

variable {env : Env} {reqEvents : PendingTable} {response : Response}
  {notified : Option Thread}

section Cases

theorem onResponse_unknown (unknown : reqEvents.lookup response.correlationID = none) :
    onResponse env reqEvents response notified =
      { reqEvents, stored := [], outcome := .ok () } := by
  unfold onResponse
  rw [unknown]

theorem onResponse_fault {entry : Option (AsyncResult Thread)} {fault : Fault}
    (found : reqEvents.lookup response.correlationID = some entry)
    (failed : decodeResponse env response.body = .error fault) :
    onResponse env reqEvents response notified =
      { reqEvents, stored := [], outcome := .error fault } := by
  unfold onResponse
  simp only [found, failed]

theorem onResponse_null {result : Str × Str}
    (found : reqEvents.lookup response.correlationID = some none)
    (decoded : decodeResponse env response.body = .ok result) :
    onResponse env reqEvents response notified =
      { reqEvents, stored := [], outcome := .error .undefined } := by
  unfold onResponse
  simp only [found, decoded]

theorem onResponse_set {object : AsyncResult Thread} {result : Str × Str}
    (found : reqEvents.lookup response.correlationID = some (some object))
    (decoded : decodeResponse env response.body = .ok result) :
    onResponse env reqEvents response notified =
      { reqEvents :=
          reqEvents.insert response.correlationID (some (setTo object result notified))
        stored := [(response.correlationID, result)]
        outcome := .ok () } := by
  unfold onResponse
  simp only [found, decoded]

end Cases

/-- A reply is handled as it should be exactly when its correlation id is
unknown or it answers a pending call. -/
theorem handlesResponse_iff (lawful : env.json.Lawful) :
    HandlesResponse env reqEvents response notified ↔
      reqEvents.lookup response.correlationID = none ∨ Answers env reqEvents response := by
  constructor
  · intro handles
    by_cases answered : Answers env reqEvents response
    · exact Or.inr answered
    · left
      have quiet := (handles.otherwise answered).1
      have returned := handles.returns
      cases found : reqEvents.lookup response.correlationID with
      | none => rfl
      | some entry =>
          exfalso
          cases decoded : decodeResponse env response.body with
          | error fault =>
              rw [onResponse_fault found decoded] at returned
              cases returned
          | ok result =>
              cases entry with
              | none =>
                  rw [onResponse_null found decoded] at returned
                  cases returned
              | some object =>
                  rw [onResponse_set found decoded] at quiet
                  cases quiet
  · intro either
    rcases either with unknown | answered
    · have handled : onResponse env reqEvents response notified = _ := onResponse_unknown unknown
      constructor
      · intro object error result found
        rw [unknown] at found
        cases found
      · intro _
        rw [handled]
        exact ⟨rfl, rfl⟩
      · rw [handled]
    · constructor
      · intro object error result found replies
        obtain ⟨text, dumped, _⟩ := dump_result lawful replies
        rw [onResponse_set found (decodeResponse_of_dump replies dumped)]
        exact ⟨text, dumped, rfl, rfl⟩
      · intro notAnswered
        exact absurd answered notAnswered
      · obtain ⟨⟨object, found⟩, error, result, replies⟩ := answered
        obtain ⟨text, dumped, _⟩ := dump_result lawful replies
        rw [onResponse_set found (decodeResponse_of_dump replies dumped)]

/-- One pending call. -/
def onePending : PendingTable :=
  OrderedMap.empty.insert (ascii "corr-1") (some {})

theorem handlesResponse_iff_plain :
    HandlesResponse ⟨codec, false⟩ onePending ⟨ascii "corr-1", plainReply⟩ none :=
  (@handlesResponse_iff ⟨codec, false⟩ onePending _ none codec_lawful).mpr
    (Or.inr ⟨⟨{}, rfl⟩, .null, .int 3, rfl⟩)

/-- `[1, "corr-2", null, 3]` -/
def otherReply : Str :=
  ascii "[1,\"corr-2\",null,3]"

/-- A reply to another request is stored as the result of the pending call. -/
theorem not_handlesResponse_other :
    ¬ ∀ (reqEvents : PendingTable) (response : Response) (notified : Option Thread),
      HandlesResponse ⟨codec, false⟩ reqEvents response notified := by
  intro claimed
  have handles := claimed onePending ⟨ascii "corr-1", otherReply⟩ none
  have parsed : codec.parse (cString otherReply) =
      some (.array [.int 1, .string (ascii "corr-2"), .null, .int 3]) := rfl
  have notAnswers : ¬ Answers ⟨codec, false⟩ onePending ⟨ascii "corr-1", otherReply⟩ := by
    intro answers
    obtain ⟨_, error, result, replies⟩ := answers
    have sameDocument := Json.array.inj (Option.some.inj (parsed.symm.trans replies))
    have sameId : ascii "corr-2" = ascii "corr-1" := by
      injection sameDocument with _ rest
      injection rest with id _
      exact Json.string.inj id
    exact absurd sameId (by decide)
  have stored : (onResponse ⟨codec, false⟩ onePending ⟨ascii "corr-1", otherReply⟩
      none).stored.isEmpty = false := by
    decide +kernel
  rw [(handles.otherwise notAnswers).1] at stored
  cases stored

/-- What the event loop has recorded when it is done with a reply. -/
def LoopReturn.events (handled : LoopReturn) : List Event :=
  handled.stored.map fun entry => .stored entry.1 entry.2

def LoopReturn.fault (handled : LoopReturn) : Option Fault :=
  match handled.outcome with
  | .ok () => none
  | .error fault => some fault

/-- The state of the client after `on_response`. -/
structure Returns (state after : State) (response : Response) (handled : LoopReturn) : Prop where
  reqEvents : after.reqEvents = handled.reqEvents
  fault : after.fault = handled.fault
  history : after.history = state.history ++
    .delivered response (state.reqEvents.lookup response.correlationID).isSome :: handled.events
  users : after.users = state.users

/-- `set` in its two steps, when its mutex is free. -/
private theorem setTo_eq {object : AsyncResult Thread} {condVar : CondVar Thread}
    (result : Str × Str) (unlocked : object.mutex = none)
    (chosen : object.condVar.notifyOne notified = some condVar) :
    setTo object result notified = { mutex := none, condVar, done := true, result } := by
  rcases CondVar.notifyOne_eq_some.mp chosen with ⟨isNone, empty, rfl⟩ | ⟨target, _, isSome, rfl⟩
  · simp [setTo, isNone, unlocked, empty]
  · simp [setTo, isSome, unlocked]

/-- When no other thread comes in, the steps of the event loop for one reply
are `on_response` from beginning to end. -/
theorem exec_onResponse (config : Config) {state : State} (alive : state.fault = none)
    (idle : state.loop = .idle)
    (free : ∀ object, state.object response.correlationID = some object →
      object.mutex = none ∧ (object.condVar.notifyOne notified).isSome = true) :
    ∃ actions after,
      (∀ action ∈ actions,
        action = .deliver response ∨ action = .advance .loop ∨ action = .store notified) ∧
      (machine env config).exec actions state = some after ∧
        Returns state after response (onResponse env state.reqEvents response notified) := by
  cases found : state.reqEvents.lookup response.correlationID with
  | none =>
      refine ⟨[.deliver response], state.record [.delivered response false], by simp, ?_, ?_⟩
      · simp [Machine.exec, machine, step, alive, idle, found]
      · rw [onResponse_unknown found]
        exact ⟨rfl, alive, by rw [found]; rfl, rfl⟩
  | some entry =>
      have known : (state.reqEvents.lookup response.correlationID).isSome = true := by
        rw [found]
        rfl
      cases decoded : decodeResponse env response.body with
      | error fault =>
          refine ⟨[.deliver response, .advance .loop],
            { state.record [.delivered response true] with
              loop := .decode response
              fault := some fault }, by simp, ?_, ?_⟩
          · simp [Machine.exec, machine, step, loopStep, alive, idle, found, decoded, State.record]
          · rw [onResponse_fault found decoded]
            exact ⟨rfl, rfl, by rw [known]; rfl, rfl⟩
      | ok result =>
          cases entry with
          | none =>
              refine ⟨[.deliver response, .advance .loop, .advance .loop],
                { state.record [.delivered response true] with
                  loop := .lookup response.correlationID result
                  fault := some .undefined }, by simp, ?_, ?_⟩
              · simp [Machine.exec, machine, step, loopStep, alive, idle, found, decoded,
                  State.record, State.object, State.subscript, State.undefined]
              · rw [onResponse_null found decoded]
                exact ⟨rfl, rfl, by rw [known]; rfl, rfl⟩
          | some object =>
              have stored : state.object response.correlationID = some object := by
                rw [State.object, found]
                rfl
              obtain ⟨unlocked, notifies⟩ := free object stored
              obtain ⟨condVar, chosen⟩ := Option.isSome_iff_exists.mp notifies
              refine ⟨[.deliver response, .advance .loop, .advance .loop, .advance .loop,
                  .store notified],
                { ((state.record [.delivered response true]).setObject response.correlationID
                    { object with mutex := some .loop }).setObject response.correlationID
                      { mutex := none, condVar, done := true, result } with
                  history := state.history ++
                    [.delivered response true, .stored response.correlationID result]
                  loop := .idle }, by simp, ?_, ?_⟩
              · simp [Machine.exec, machine, step, loopStep, alive, idle, found, decoded,
                  State.record, State.object, State.setObject, AsyncResult.setLock,
                  AsyncResult.setResult, Mutex.lock, unlocked, chosen]
              · rw [onResponse_set found decoded, setTo_eq result unlocked chosen]
                refine ⟨?_, alive, by rw [known]; rfl, rfl⟩
                exact OrderedMap.insert_insert _ _ _ _

end Client

end Ccmqsrv
