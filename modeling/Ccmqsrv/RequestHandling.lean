import Ccmqsrv.Server

/-!
# What the server does with one request

The chain from the decoded request to the published reply: which faults the
conversion of arguments can raise, what the registered function's outcome
becomes in the reply, and when the reply can be sent.
-/

namespace Ccmqsrv

open Foundations

/-- A fault that the `catch` clauses do not turn into an error reply. -/
def Fault.Escapes : Fault → Prop
  | .thrown (.runtimeError _) => False
  | _ => True

section Conversion

private theorem escapes_of_anyCast {α : Type} {read : Any → Option α} {value : Any}
    {fault : Fault} (failed : anyCast read value = .error fault) : fault.Escapes := by
  unfold anyCast throwing at failed
  split at failed
  · cases failed
  · cases failed
    trivial

private theorem escapes_of_bind {α β : Type} {first : Cpp α} {next : α → Cpp β} {fault : Fault}
    (failed : first >>= next = .error fault)
    (firstEscapes : ∀ other, first = .error other → other.Escapes)
    (nextEscapes : ∀ value other, next value = .error other → other.Escapes) :
    fault.Escapes := by
  cases first with
  | ok value => exact nextEscapes value fault failed
  | error other =>
      rw [error_bind] at failed
      injection failed with same
      exact same ▸ firstEscapes other rfl

private theorem escapes_of_mapM {α β : Type} {read : α → Cpp β}
    (readEscapes : ∀ value other, read value = .error other → other.Escapes) :
    ∀ {values : List α} {fault : Fault},
      values.mapM read = .error fault → fault.Escapes
  | [], _, failed => by
      cases failed
  | value :: rest, fault, failed => by
      rw [List.mapM_cons] at failed
      refine escapes_of_bind failed (readEscapes value) fun head other tailFailed => ?_
      refine escapes_of_bind tailFailed (fun _ => escapes_of_mapM readEscapes) ?_
      intro tail other returned
      cases returned

private theorem escapes_of_convert {type : ParamType} {data : Any} {component : type.denote}
    {fault : Fault} (failed : convert type data component = .error fault) :
    fault.Escapes := by
  cases type with
  | vec valueType =>
      rw [convert_vec] at failed
      refine escapes_of_bind failed (fun _ => escapes_of_anyCast) fun badAny other => ?_
      exact escapes_of_mapM fun _ _ => escapes_of_anyCast
  | map mappedType =>
      rw [convert_map] at failed
      refine escapes_of_bind failed (fun _ => escapes_of_anyCast) fun badAny other inner => ?_
      refine escapes_of_bind inner ?_ ?_
      · intro _
        apply escapes_of_mapM
        intro member other reading
        unfold castEntry at reading
        refine escapes_of_bind reading (fun _ => escapes_of_anyCast) ?_
        intro value _ returned
        cases returned
      · intro entries _ returned
        cases returned
  | int => cases failed
  | double => cases failed
  | string => cases failed
  | bool => cases failed
  | null => cases failed

private theorem escapes_of_getv {type : ParamType} {data : Any} {component : type.denote}
    {fault : Fault} (failed : getv type data component = .error fault) :
    fault.Escapes := by
  unfold getv at failed
  split at failed
  · cases failed
  · exact escapes_of_convert failed

private theorem escapes_of_subscript {α : Type} {data : List α} {index : Nat} {fault : Fault}
    (failed : subscript data index = .error fault) : fault.Escapes := by
  unfold subscript at failed
  split at failed
  · cases failed
  · cases failed
    trivial

private theorem escapes_of_getComponents {data : List Any} :
    ∀ {params : List ParamType} {index : Nat} {fault : Fault},
      getComponents data params index = .error fault → fault.Escapes
  | [], _, _, failed => by
      cases failed
  | type :: rest, index, fault, failed => by
      unfold getComponents at failed
      refine escapes_of_bind failed (fun _ => escapes_of_subscript) fun value other inner => ?_
      refine escapes_of_bind inner (fun _ => escapes_of_getv) fun component other deeper => ?_
      refine escapes_of_bind deeper (fun _ => escapes_of_getComponents) ?_
      intro others _ returned
      cases returned

/-- The conversion of arguments never raises a `std::runtime_error`. -/
theorem escapes_of_getTuple {params : List ParamType} {data : List Any} {fault : Fault}
    (failed : getTuple params data = .error fault) : fault.Escapes :=
  escapes_of_getComponents failed

end Conversion

variable {env : Env}

/-- What the elements of a decoded message must be for `rpc_decode_req` to
return `request`. -/
structure RequestItems (env : Env) (items : List Json) (checkId : Str)
    (request : Request) : Prop where
  type_eq : ∃ typ, items[0]? = some (.int typ) ∧ (Int32.ofInt typ = 0 ∨ env.ndebug = true)
  msgid_eq : items[1]? = some (.string request.msgid)
  checked : checkId = [] ∨ request.msgid = checkId ∨ env.ndebug = true
  meth_eq : items[2]? = some (.string request.meth)
  args_eq : ∃ args, items[3]? = some (.array args) ∧ args.map parseJsonElement = request.args
  kws_eq : ∃ kws, items[4]? = some (.object kws) ∧ parseMembers [] kws = request.kws

theorem requestItems_iff {items : List Json} {checkId : Str} {request : Request} :
    rpcDecodeReq env (items.map parseJsonElement) checkId = .ok request ↔
      RequestItems env items checkId request := by
  rw [rpcDecodeReq_eq_ok]
  simp only [List.getElem?_map, Option.map_eq_some_iff, parseJsonElement_eq_int,
    parseJsonElement_eq_string, parseJsonElement_eq_vec, parseJsonElement_eq_map]
  constructor
  · rintro ⟨⟨typ, ⟨_, zeroth, source, rfl, rfl⟩, isZero⟩, ⟨_, first, rfl⟩, checked,
      ⟨_, second, rfl⟩, ⟨_, third, args, rfl, argsEq⟩, ⟨_, fourth, kws, rfl, kwsEq⟩⟩
    exact ⟨⟨source, zeroth, isZero⟩, first, checked, second, ⟨args, third, argsEq⟩,
      ⟨kws, fourth, kwsEq⟩⟩
  · rintro ⟨⟨source, zeroth, isZero⟩, first, checked, second, ⟨args, third, argsEq⟩,
      ⟨kws, fourth, kwsEq⟩⟩
    exact ⟨⟨_, ⟨_, zeroth, source, rfl, rfl⟩, isZero⟩, ⟨_, first, rfl⟩, checked,
      ⟨_, second, rfl⟩, ⟨_, third, args, rfl, argsEq⟩, ⟨_, fourth, kws, rfl, kwsEq⟩⟩

theorem rpcFind_eq_ok {server : MessageQueueServer} {message : Message} {found : Lookup} :
    rpcFind env server message = .ok found ↔
      ∃ document request, env.json.parse message.body = some document ∧
        RequestItems env (jsonItems document) message.correlationID request ∧
        rpcRoute env server message request = .ok found := by
  unfold rpcFind
  simp only [bind_eq_ok]
  constructor
  · rintro ⟨data, loaded, request, decoded, route⟩
    obtain ⟨document, parsed, rfl⟩ := jsonLoadb_eq_ok.mp loaded
    exact ⟨document, request, parsed, requestItems_iff.mp decoded, route⟩
  · rintro ⟨document, request, parsed, shape, route⟩
    exact ⟨_, jsonLoadb_eq_ok.mpr ⟨document, parsed, rfl⟩, request,
      requestItems_iff.mpr shape, route⟩

section Route

variable {server : MessageQueueServer} {message : Message} {request : Request}

theorem rpcRoute_keywords (keywords : request.kws ≠ []) :
    rpcRoute env server message request =
      rpcCatch env (initialRes message) (throwing (.runtimeError keywordError)) >>= fun res =>
        .ok (.reply res) := by
  have nonempty : (!request.kws.isEmpty) = true := by
    simpa using keywords
  unfold rpcRoute
  rw [if_pos nonempty]
  rfl

theorem rpcRoute_found (noKeywords : request.kws = [])
    (found : (server.rpcFuncMap.lookup request.meth).isSome = true) :
    rpcRoute env server message request = .ok (.call request.meth request.args) := by
  unfold rpcRoute
  rw [noKeywords, if_neg (by simp), if_pos found]

theorem rpcRoute_missing (noKeywords : request.kws = [])
    (missing : server.rpcFuncMap.lookup request.meth = none) :
    rpcRoute env server message request = .ok (.reply (initialRes message)) := by
  unfold rpcRoute
  rw [noKeywords, if_neg (by simp), missing]
  rfl

end Route

/-- `res` is ready to be sent as the reply to `message`: its result text holds
one document. -/
structure Res.Answers (env : Env) (message : Message) (res : Res) (document : Json) : Prop where
  type_eq : res.type = 1
  msgid_eq : res.msgid = message.correlationID
  replyTo_eq : res.replyTo = message.replyTo
  result_eq : env.json.parse res.result = some (.array [document])

/-- The worker gets past its `try` block with this outcome of the function. -/
def Caught : Except Exn Returned → Prop
  | .ok value => value.document.ValidUtf8
  | .error (.runtimeError _) => True
  | .error _ => False

theorem rpcCatch_runtimeError (lawful : env.json.Lawful) (message : Message)
    (text : Str) :
    ∃ res, rpcCatch env (initialRes message) (throwing (.runtimeError text)) = .ok res ∧
      res.error = cString text ∧ res.Answers env message .null := by
  obtain ⟨result, dumped, parsed⟩ :=
    lawful.parse_dump (.array [.null]) (by simp) (by simp)
  refine ⟨{ initialRes message with error := cString text, result }, ?_, rfl, rfl, rfl, rfl, ?_⟩
  · unfold rpcCatch throwing
    simp only [jsonDump_eq_ok.mpr dumped, ok_bind]
    rfl
  · simpa using parsed

theorem rpcCatch_escapes {res after : Res} {fault : Fault} (escapes : fault.Escapes) :
    rpcCatch env res (.error fault) ≠ .ok after := by
  intro caught
  unfold rpcCatch throwing at caught
  split at caught
  · rename_i impossible
    cases impossible
  · rename_i same
    cases same
    exact escapes
  · cases caught
  · cases caught

/-- What a registered function's outcome leaves in the reply. -/
inductive Outcome (env : Env) (message : Message) (res : Res) : Except Exn Returned → Prop
  | returned {value : Returned} :
      res.error = [] → res.Answers env message value.document.scrub →
        Outcome env message res (.ok value)
  | failed {text : Str} :
      res.error = cString text → res.Answers env message .null →
        Outcome env message res (.error (.runtimeError text))

/-- What is known when the worker got past its `try` block. -/
theorem call_eq_ok (lawful : env.json.Lawful) {message : Message} {f : Handler}
    {data : List Any} {res : Res} :
    rpcCatch env (initialRes message)
        (callFunction env (some f) (initialRes message) data).outcome = .ok res →
      ∃ args, getTuple f.params data = .ok args ∧ Caught (f.func args) ∧
        Outcome env message res (f.func args) := by
  intro caught
  show ∃ args, _
  change rpcCatch env (initialRes message) (callproxy env f (initialRes message) data).outcome = _
    at caught
  cases converted : getTuple f.params data with
  | error fault =>
      rw [callproxy_of_error converted] at caught
      exact absurd caught (rpcCatch_escapes (escapes_of_getTuple converted))
  | ok args =>
      rw [callproxy_of_args converted] at caught
      refine ⟨args, rfl, ?_⟩
      cases called : f.func args with
      | ok value =>
          rw [called] at caught
          simp only [rethrowing, ok_bind] at caught
          cases dumped : env.json.dump (.array [value.document]) with
          | none =>
              have failed : jsonDump env (.array [value.document]) = throwing .jsonException := by
                unfold jsonDump
                rw [dumped]
              rw [failed] at caught
              cases caught
          | some result =>
              rw [jsonDump_eq_ok.mpr dumped, ok_bind] at caught
              cases caught
              have parsed := lawful.parse_of_dump (by
                simpa using value.document_wellFormed) dumped
              have valid := lawful.validUtf8_of_dump dumped
              refine ⟨?_, Outcome.returned rfl ⟨rfl, rfl, rfl, ?_⟩⟩
              · show value.document.ValidUtf8
                simpa using valid
              · simpa using parsed
      | error exception =>
          rw [called] at caught
          cases exception with
          | runtimeError text =>
              obtain ⟨expected, caughtAs, errorEq, answers⟩ :=
                rpcCatch_runtimeError lawful message text
              have same : (Except.ok expected : Cpp Res) = .ok res := caughtAs.symm.trans caught
              cases same
              exact ⟨trivial, Outcome.failed errorEq answers⟩
          | badAnyCast => cases caught
          | badFunctionCall => cases caught
          | jsonException => cases caught
          | baseException code msg => cases caught
          | stdException => cases caught

/-- The converse of `call_eq_ok`. -/
theorem call_of_caught (lawful : env.json.Lawful) (message : Message) {f : Handler}
    {data : List Any} {args : Tuple f.params}
    (converted : getTuple f.params data = .ok args)
    (printable : Caught (f.func args)) :
    ∃ res, rpcCatch env (initialRes message)
        (callFunction env (some f) (initialRes message) data).outcome = .ok res ∧
      Outcome env message res (f.func args) := by
  show ∃ res, rpcCatch env _ (callproxy env f (initialRes message) data).outcome = _ ∧ _
  rw [callproxy_of_args converted]
  cases called : f.func args with
  | ok value =>
      rw [called] at printable
      have valid : value.document.ValidUtf8 := printable
      obtain ⟨result, dumped, parsed⟩ := lawful.parse_dump (.array [value.document])
        (by simpa using value.document_wellFormed) (by simpa using valid)
      refine ⟨{ initialRes message with result }, ?_, Outcome.returned rfl ⟨rfl, rfl, rfl, ?_⟩⟩
      · simp only [rethrowing, ok_bind, jsonDump_eq_ok.mpr dumped]
        rfl
      · simpa using parsed
  | error exception =>
      rw [called] at printable
      cases exception with
      | runtimeError text =>
          obtain ⟨res, caught, errorEq, answers⟩ := rpcCatch_runtimeError lawful message text
          exact ⟨res, caught, Outcome.failed errorEq answers⟩
      | badAnyCast => exact False.elim printable
      | badFunctionCall => exact False.elim printable
      | jsonException => exact False.elim printable
      | baseException code msg => exact False.elim printable
      | stdException => exact False.elim printable

/-- A reply with one result document is sent exactly when its id and its error
are valid UTF-8, and it then carries them. -/
theorem sendReply_of_answers (lawful : env.json.Lawful) {message : Message} {res : Res}
    {document : Json} (answers : res.Answers env message document) :
    (∃ envelope, sendReply env res = .ok envelope) ↔
      validUtf8 message.correlationID = true ∧ validUtf8 res.error = true := by
  have sound := lawful.parse_sound _ _ answers.result_eq
  have documentWellFormed : document.WellFormed := by simpa using sound.1
  have documentValid : document.ValidUtf8 := by simpa using sound.2.1
  have typeToInt : res.type.toInt = 1 := by
    rw [answers.type_eq]
    rfl
  have wellFormed : Json.WellFormed (.array
      [.int res.type.toInt, .string res.msgid, .string res.error, document]) := by
    simp [typeToInt, documentWellFormed]
  have printable := lawful.exists_dump_iff wellFormed
  have unfolded : sendReply env res =
      jsonDump env (.array [.int res.type.toInt, .string res.msgid, .string res.error, document])
        >>= fun body => .ok
          { routingKey := res.replyTo, correlationID := res.msgid, body } := by
    unfold sendReply
    rw [jsonParse_eq_ok.mpr answers.result_eq]
    rfl
  rw [unfolded]
  simp only [bind_eq_ok, jsonDump_eq_ok]
  constructor
  · rintro ⟨envelope, body, dumped, _⟩
    have valid := printable.mp ⟨body, dumped⟩
    simp only [Json.validUtf8_array, List.forall_mem_cons, Json.validUtf8_string] at valid
    rw [answers.msgid_eq] at valid
    exact ⟨valid.2.1, valid.2.2.1⟩
  · rintro ⟨idValid, errorValid⟩
    obtain ⟨body, dumped⟩ := printable.mpr (by
      simp [answers.msgid_eq, idValid, errorValid, documentValid])
    exact ⟨_, body, dumped, rfl⟩

/-- What the reply that was sent says. -/
theorem sendReply_eq_ok (lawful : env.json.Lawful) {message : Message} {res : Res}
    {document : Json} {envelope : Envelope} (answers : res.Answers env message document)
    (sent : sendReply env res = .ok envelope) :
    envelope.routingKey = message.replyTo ∧ envelope.correlationID = message.correlationID ∧
      (0 : UInt8) ∉ envelope.body ∧
      env.json.parse envelope.body = some (.array
        [.int 1, .string message.correlationID, .string res.error, document]) := by
  have sound := lawful.parse_sound _ _ answers.result_eq
  have documentWellFormed : document.WellFormed := by simpa using sound.1
  have documentFinite : document.Finite := by simpa using sound.2.2
  have typeToInt : res.type.toInt = 1 := by
    rw [answers.type_eq]
    rfl
  unfold sendReply at sent
  rw [jsonParse_eq_ok.mpr answers.result_eq, ok_bind] at sent
  obtain ⟨first, firstEq, printed⟩ := bind_eq_ok.mp sent
  have same : document = first := by
    injection firstEq
  subst same
  obtain ⟨body, dumped, returned⟩ := bind_eq_ok.mp printed
  cases returned
  rw [jsonDump_eq_ok] at dumped
  refine ⟨answers.replyTo_eq, answers.msgid_eq, lawful.dump_noZero _ _ dumped, ?_⟩
  have parsed := lawful.parse_of_dump (by simp [typeToInt, documentWellFormed]) dumped
  rw [parsed, Json.Finite.scrub_eq (by simp [documentFinite]), answers.msgid_eq, typeToInt]

/-- The reply with this outcome of the function can be printed. -/
def Sendable : Except Exn Returned → Prop
  | .ok value => value.document.ValidUtf8
  | .error (.runtimeError text) => validUtf8 (cString text) = true
  | .error _ => False

/-- The function gets its arguments, and its outcome can be sent. -/
def Replied (f : Handler) (data : List Any) : Prop :=
  ∃ args, getTuple f.params data = .ok args ∧ Sendable (f.func args)

private theorem Sendable.caught {outcome : Except Exn Returned}
    (sendable : Sendable outcome) : Caught outcome := by
  cases outcome with
  | ok value => exact sendable
  | error exception =>
      cases exception with
      | runtimeError text => trivial
      | _ => exact sendable

private theorem Outcome.sendable_iff {message : Message} {res : Res}
    {outcome : Except Exn Returned} (result : Outcome env message res outcome)
    (caught : Caught outcome) :
    ∃ document, res.Answers env message document ∧
      (validUtf8 res.error = true ↔ Sendable outcome) := by
  cases result with
  | returned noError answers =>
      refine ⟨_, answers, ?_⟩
      rw [noError]
      exact ⟨fun _ => caught, fun _ => rfl⟩
  | failed errorEq answers =>
      refine ⟨_, answers, ?_⟩
      rw [errorEq]
      exact Iff.rfl

theorem call_replied (lawful : env.json.Lawful) (message : Message) {f : Handler}
    {data : List Any} (replied : Replied f data) :
    ∃ res document, rpcCatch env (initialRes message)
        (callFunction env (some f) (initialRes message) data).outcome = .ok res ∧
      res.Answers env message document ∧ validUtf8 res.error = true := by
  obtain ⟨args, converted, sendable⟩ := replied
  obtain ⟨res, called, result⟩ := call_of_caught lawful message converted sendable.caught
  obtain ⟨document, answers, errorValid⟩ := result.sendable_iff sendable.caught
  exact ⟨res, document, called, answers, errorValid.mpr sendable⟩

/-- Calling the function and sending the reply works exactly when the outcome
and the id can be printed. -/
theorem call_sendReply_iff (lawful : env.json.Lawful) {message : Message} {f : Handler}
    {data : List Any} :
    (∃ envelope, (rpcCatch env (initialRes message)
        (callFunction env (some f) (initialRes message) data).outcome >>= sendReply env) =
          .ok envelope) ↔
      validUtf8 message.correlationID = true ∧ Replied f data := by
  constructor
  · rintro ⟨envelope, done⟩
    obtain ⟨res, called, sent⟩ := bind_eq_ok.mp done
    obtain ⟨args, converted, caught, result⟩ := call_eq_ok lawful called
    obtain ⟨document, answers, errorValid⟩ := result.sendable_iff caught
    have printed := (sendReply_of_answers lawful answers).mp ⟨envelope, sent⟩
    exact ⟨printed.1, args, converted, errorValid.mp printed.2⟩
  · rintro ⟨idValid, replied⟩
    obtain ⟨res, document, called, answers, errorValid⟩ :=
      call_replied lawful message replied
    rw [called, ok_bind]
    exact (sendReply_of_answers lawful answers).mpr ⟨idValid, errorValid⟩

/-- A request with keyword arguments is answered with an error. -/
theorem keywordReply (lawful : env.json.Lawful) (message : Message) :
    ∃ res, rpcCatch env (initialRes message) (throwing (.runtimeError keywordError)) = .ok res ∧
      res.Answers env message .null ∧ validUtf8 res.error = true := by
  obtain ⟨res, caught, errorEq, answers⟩ := rpcCatch_runtimeError lawful message keywordError
  refine ⟨res, caught, answers, ?_⟩
  rw [errorEq]
  decide

/-- Without a result text nothing can be sent. -/
theorem sendReply_initialRes (lawful : env.json.Lawful) (message : Message) :
    sendReply env (initialRes message) = throwing .jsonException := by
  unfold sendReply initialRes jsonParse
  rw [lawful.parse_nil]
  rfl

end Ccmqsrv
