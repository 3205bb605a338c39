import Ccmqsrv.RequestHandling
import Ccmqsrv.Response

/-!
# The outcome of a remote call

The outcome of the registered function crosses two encodings on the server and
two decodings on the client.  It arrives as it left, with one exception: a
`std::runtime_error` without a text cannot be told from success.
-/

namespace Ccmqsrv

open Foundations

/-- The message is a request as `rpc_encode_req` writes it, with the
correlation id equal to the id in the body. -/
def IsRequest (env : Env) (message : Message) (meth : Str) (args : List Json)
    (kws : List (Str × Json)) : Prop :=
  env.json.parse message.body = some (.array
    [.int 0, .string message.correlationID, .string meth, .array args, .object kws])

/-- A call whose request is handled while nobody changes the server's tables. -/
def remoteCall (env : Env) (server : MessageQueueServer) (message : Message) : Cpp Json := do
  let envelope ← (rpcWorker env server message).2
  callOutcome env envelope.body

/-- The call returns exactly what the function returns, and throws a
`std::runtime_error` exactly when the function does, with the same `what()`. -/
structure Faithful (outcome : Except Exn Returned) (call : Cpp Json) : Prop where
  returns : ∀ document, call = .ok document ↔
    ∃ value, outcome = .ok value ∧ document = value.document
  throws : ∀ text, (∃ message, call = throwing (.runtimeError message) ∧
      cString message = text) ↔
    ∃ message, outcome = .error (.runtimeError message) ∧ cString message = text

/-- All text is valid UTF-8 and all floats are finite. -/
def Representable : Except Exn Returned → Prop
  | .ok value => value.document.ValidUtf8 ∧ value.document.Finite
  | .error (.runtimeError message) => validUtf8 message = true
  | .error _ => True

variable {env : Env} {server : MessageQueueServer} {message : Message} {meth : Str}
  {args : List Json}

theorem IsRequest.decoded {kws : List (Str × Json)}
    (request : IsRequest env message meth args kws) :
    ∃ data, jsonLoadb env message.body = .ok data ∧
      rpcDecodeReq env data message.correlationID = .ok
        ⟨message.correlationID, meth, args.map parseJsonElement, parseMembers [] kws⟩ := by
  refine ⟨_, jsonLoadb_eq_ok.mpr ⟨_, request, rfl⟩, ?_⟩
  apply rpcDecodeReq_eq_ok.mpr
  refine ⟨⟨0, rfl, Or.inl rfl⟩, rfl, Or.inr (Or.inl rfl), rfl, ?_, rfl⟩
  show some (parseJsonElement (.array args)) = _
  rw [parseJsonElement, parseElements_eq_map]

theorem IsRequest.validUtf8_id (lawful : env.json.Lawful) {kws : List (Str × Json)}
    (request : IsRequest env message meth args kws) :
    validUtf8 message.correlationID = true := by
  have sound := lawful.parse_sound _ _ request
  have parts := (Json.validUtf8_array _).mp sound.2.1
  exact (Json.validUtf8_string _).mp (parts (.string message.correlationID) (by simp))

theorem rpcFind_call (request : IsRequest env message meth args [])
    (found : (server.rpcFuncMap.lookup meth).isSome = true) :
    rpcFind env server message = .ok (.call meth (args.map parseJsonElement)) := by
  obtain ⟨data, loaded, decoded⟩ := request.decoded
  have noKws : parseMembers [] ([] : List (Str × Json)) = [] := parseMembers_eq_nil.mpr rfl
  unfold rpcFind
  rw [loaded, ok_bind, decoded, ok_bind]
  exact rpcRoute_found noKws found

section Call

variable {f : Handler} {tuple : Tuple f.params}

private theorem rpcWorker_request (request : IsRequest env message meth args [])
    (registered : server.rpcFuncMap.lookup meth = some (some f)) :
    rpcWorker env server message =
      (server, rpcCatch env (initialRes message)
          (callFunction env (some f) (initialRes message) (args.map parseJsonElement)).outcome
        >>= sendReply env) := by
  have found : (server.rpcFuncMap.lookup meth).isSome = true := by
    rw [registered]
    rfl
  exact rpcWorker_call (rpcFind_call request found) registered

/-- The reply to a call whose function came past the `try` block. -/
theorem remoteCall_of_outcome (lawful : env.json.Lawful)
    (request : IsRequest env message meth args [])
    (registered : server.rpcFuncMap.lookup meth = some (some f))
    (converted : getTuple f.params (args.map parseJsonElement) = .ok tuple)
    (caught : Caught (f.func tuple)) :
    ∃ res, Outcome env message res (f.func tuple) ∧
      ∀ document, res.Answers env message document → validUtf8 res.error = true →
        remoteCall env server message =
          if res.error = [] then .ok document else throwing (.runtimeError res.error) := by
  obtain ⟨res, called, outcome⟩ := call_of_caught lawful message converted caught
  refine ⟨res, outcome, fun document answers errorValid => ?_⟩
  obtain ⟨envelope, sent⟩ := (sendReply_of_answers lawful answers).mpr
    ⟨request.validUtf8_id lawful, errorValid⟩
  obtain ⟨_, _, noZero, parsed⟩ := sendReply_eq_ok lawful answers sent
  unfold remoteCall
  rw [rpcWorker_request request registered, called, ok_bind, sent, ok_bind]
  rw [← cString_eq_self noZero] at parsed
  exact callOutcome_reply lawful parsed

theorem remoteCall_returned (lawful : env.json.Lawful)
    (request : IsRequest env message meth args [])
    (registered : server.rpcFuncMap.lookup meth = some (some f))
    (converted : getTuple f.params (args.map parseJsonElement) = .ok tuple)
    {value : Returned} (returned : f.func tuple = .ok value)
    (representable : Representable (f.func tuple)) :
    remoteCall env server message = .ok value.document := by
  rw [returned] at representable
  obtain ⟨valid, finite⟩ : value.document.ValidUtf8 ∧ value.document.Finite := representable
  have caught : Caught (f.func tuple) := by
    rw [returned]
    exact valid
  obtain ⟨res, outcome, called⟩ :=
    remoteCall_of_outcome lawful request registered converted caught
  rw [returned] at outcome
  cases outcome with
  | returned noError answers =>
      have errorValid : validUtf8 res.error = true := by
        rw [noError]
        rfl
      rw [called _ answers errorValid, if_pos noError, finite.scrub_eq]

theorem remoteCall_failed (lawful : env.json.Lawful)
    (request : IsRequest env message meth args [])
    (registered : server.rpcFuncMap.lookup meth = some (some f))
    (converted : getTuple f.params (args.map parseJsonElement) = .ok tuple)
    {text : Str} (failed : f.func tuple = .error (.runtimeError text))
    (representable : Representable (f.func tuple)) :
    remoteCall env server message =
      if cString text = [] then .ok .null else throwing (.runtimeError (cString text)) := by
  rw [failed] at representable
  have valid : validUtf8 text = true := representable
  have caught : Caught (f.func tuple) := by
    rw [failed]
    trivial
  obtain ⟨res, outcome, called⟩ :=
    remoteCall_of_outcome lawful request registered converted caught
  rw [failed] at outcome
  cases outcome with
  | failed errorEq answers =>
      have errorValid : validUtf8 res.error = true := by
        rw [errorEq]
        exact validUtf8_cString valid
      rw [called _ answers errorValid, errorEq]

theorem remoteCall_escaped
    (request : IsRequest env message meth args [])
    (registered : server.rpcFuncMap.lookup meth = some (some f))
    (converted : getTuple f.params (args.map parseJsonElement) = .ok tuple)
    (escaped : ¬ Caught (f.func tuple)) {exception : Exn}
    (thrown : f.func tuple = .error exception) :
    remoteCall env server message = throwing .stdException := by
  have threw : (callFunction env (some f) (initialRes message)
      (args.map parseJsonElement)).outcome = throwing exception := by
    show (callproxy env f _ _).outcome = _
    rw [callproxy_of_args converted, thrown]
    rfl
  unfold remoteCall
  rw [rpcWorker_request request registered, threw]
  rw [thrown] at escaped
  cases exception with
  | runtimeError text => exact absurd trivial escaped
  | badAnyCast => rfl
  | badFunctionCall => rfl
  | jsonException => rfl
  | baseException code msg => rfl
  | stdException => rfl

/-- The outcome is reported faithfully unless the function throws a
`std::runtime_error` whose text is empty. -/
theorem faithful_iff (lawful : env.json.Lawful)
    (request : IsRequest env message meth args [])
    (registered : server.rpcFuncMap.lookup meth = some (some f))
    (converted : getTuple f.params (args.map parseJsonElement) = .ok tuple)
    (representable : Representable (f.func tuple)) :
    Faithful (f.func tuple) (remoteCall env server message) ↔
      ¬ ∃ text, f.func tuple = .error (.runtimeError text) ∧ cString text = [] := by
  cases called : f.func tuple with
  | ok value =>
      have returned := remoteCall_returned lawful request registered converted called
        representable
      rw [returned]
      constructor
      · rintro _ ⟨text, thrown, _⟩
        cases thrown
      · intro _
        refine ⟨fun document => ⟨?_, ?_⟩, fun text => ⟨?_, ?_⟩⟩
        · intro same
          cases same
          exact ⟨value, rfl, rfl⟩
        · rintro ⟨_, same, rfl⟩
          cases same
          rfl
        · rintro ⟨_, thrown, _⟩
          cases thrown
        · rintro ⟨_, thrown, _⟩
          cases thrown
  | error exception =>
      by_cases isRuntime : ∃ text, exception = .runtimeError text
      · obtain ⟨text, same⟩ := isRuntime
        subst same
        have failed := remoteCall_failed lawful request registered converted called
          representable
        by_cases silent : cString text = []
        · rw [failed, if_pos silent]
          constructor
          · intro faithful
            obtain ⟨_, thrown, _⟩ := (faithful.throws []).mpr ⟨text, rfl, silent⟩
            cases thrown
          · intro loud
            exact absurd ⟨text, rfl, silent⟩ loud
        · rw [failed, if_neg silent]
          constructor
          · rintro _ ⟨other, same, isEmpty⟩
            cases same
            exact silent isEmpty
          · intro _
            refine ⟨fun document => ⟨?_, ?_⟩, fun expected => ⟨?_, ?_⟩⟩
            · intro returned
              cases returned
            · rintro ⟨_, returned, _⟩
              cases returned
            · rintro ⟨_, thrown, isText⟩
              cases thrown
              refine ⟨text, rfl, ?_⟩
              rw [← isText, cString_idem]
            · rintro ⟨other, same, isText⟩
              cases same
              refine ⟨cString text, rfl, ?_⟩
              rw [cString_idem, isText]
      · have escaped : ¬ Caught (f.func tuple) := by
          rw [called]
          intro caught
          cases exception with
          | runtimeError text => exact isRuntime ⟨text, rfl⟩
          | _ => exact caught
        have threw := remoteCall_escaped request registered converted escaped called
        rw [threw]
        constructor
        · rintro _ ⟨text, same, _⟩
          cases same
          exact isRuntime ⟨text, rfl⟩
        · intro _
          refine ⟨fun document => ⟨?_, ?_⟩, fun text => ⟨?_, ?_⟩⟩
          · intro returned
            cases returned
          · rintro ⟨_, returned, _⟩
            cases returned
          · rintro ⟨_, thrown, _⟩
            cases thrown
          · rintro ⟨text, same, _⟩
            cases same
            exact absurd ⟨text, rfl⟩ isRuntime

end Call

/-- A function without parameters that always throws. -/
def failing (text : Str) : Handler where
  params := []
  func _ := .error (.runtimeError text)

/-- A server with one procedure. -/
def serverWith (meth : Str) (f : Handler) : MessageQueueServer where
  rpcFuncMap := OrderedMap.ofEntries [(meth, some f)]

/-- A request without arguments. -/
def plainRequest : Message where
  body := ascii "[0,\"corr-1\",\"f\",[],\x7b\x7d]"
  correlationID := ascii "corr-1"
  replyTo := ascii "cbq-1"

theorem faithful_iff_boom :
    Faithful (.error (.runtimeError (ascii "boom")))
        (remoteCall ⟨codec, false⟩ (serverWith (ascii "f") (failing (ascii "boom")))
          plainRequest) ↔
      ¬ ∃ text, (.error (.runtimeError (ascii "boom")) : Except Exn Returned) =
        .error (.runtimeError text) ∧ cString text = [] :=
  @faithful_iff ⟨codec, false⟩ (serverWith (ascii "f") (failing (ascii "boom"))) plainRequest
    (ascii "f") [] (failing (ascii "boom")) () codec_lawful rfl rfl rfl (by
      show validUtf8 (ascii "boom") = true
      decide)

/-- A call to a function that throws an empty `std::runtime_error` returns. -/
theorem not_faithful_silent :
    ¬ ∀ (server : MessageQueueServer) (message : Message) (meth : Str) (args : List Json)
        (f : Handler) (tuple : Tuple f.params),
      IsRequest ⟨codec, false⟩ message meth args [] →
        server.rpcFuncMap.lookup meth = some (some f) →
          getTuple f.params (args.map parseJsonElement) = .ok tuple →
            Representable (f.func tuple) →
              Faithful (f.func tuple) (remoteCall ⟨codec, false⟩ server message) := by
  intro faithful
  have request : IsRequest ⟨codec, false⟩ plainRequest (ascii "f") [] [] := rfl
  have registered : (serverWith (ascii "f") (failing [])).rpcFuncMap.lookup (ascii "f") =
      some (some (failing [])) := rfl
  have converted : getTuple (failing []).params (([] : List Json).map parseJsonElement) =
      .ok () := rfl
  have representable : Representable ((failing []).func ()) := rfl
  have claimed := faithful _ plainRequest (ascii "f") [] (failing []) () request registered
    converted representable
  obtain ⟨message, thrown, _⟩ := (claimed.throws []).mpr ⟨[], rfl, rfl⟩
  have failed : (failing []).func () = .error (.runtimeError []) := rfl
  have returned := remoteCall_failed codec_lawful request registered converted failed
    representable
  rw [returned] at thrown
  cases thrown

end Ccmqsrv
