import Ccmqsrv.RpcUtils
import Ccmqsrv.Foundations.JsonCodec

/-!
# Reading a reply

`on_response` decodes the body of a reply into an error text and a result
text, and `Caller::call` turns the pair into a returned document or an
exception.  Success and failure are told apart by the emptiness of the error
text alone.
-/

namespace Ccmqsrv

open Foundations

/-- The decoding in `on_response`: the body is read as a zero-terminated
string, and both texts start empty. -/
def decodeResponse (env : Env) (body : Str) : Cpp (Str × Str) :=
  rpcDecodeRep env (cString body) [] []

/-- `Caller::call` after the entry has been erased. -/
def finishCall (env : Env) (ret : Str × Str) : Cpp Json :=
  let (error, result) := ret
  if !error.isEmpty then
    throwing (.runtimeError error)
  else
    jsonParse env result

/-- What a call makes of the body of its reply. -/
def callOutcome (env : Env) (body : Str) : Cpp Json :=
  decodeResponse env body >>= finishCall env

variable {env : Env}

/-- The two texts a reply of the form `[1, id, error, result]` is decoded to. -/
theorem decodeResponse_of_dump {body id text : Str} {error result : Json}
    (parsed : env.json.parse (cString body) =
      some (.array [.int 1, .string id, error, result]))
    (dumped : env.json.dump result = some text) :
    decodeResponse env body = .ok (copyError error [], text) := by
  unfold decodeResponse rpcDecodeRep
  rw [jsonParse_eq_ok.mpr parsed]
  have typeIsOne : ((Int32.ofInt 1 == 1) || env.ndebug) = true := rfl
  simp only [ok_bind, jsonAt, getInt, getString, assertion, List.getElem?_cons_zero,
    List.getElem?_cons_succ, Option.getD_some, typeIsOne, if_true, List.isEmpty_nil,
    Bool.true_or, jsonDump_eq_ok.mpr dumped]
  rfl

/-- The result in a reply can be printed and read back. -/
theorem dump_result (lawful : env.json.Lawful) {text id : Str} {error result : Json}
    (parsed : env.json.parse text = some (.array [.int 1, .string id, error, result])) :
    ∃ printed, env.json.dump result = some printed ∧ env.json.parse printed = some result := by
  have sound := lawful.parse_sound _ _ parsed
  have wellFormed : result.WellFormed := by
    have parts := (Json.wellFormed_array _).mp sound.1
    exact parts result (by simp)
  have valid : result.ValidUtf8 := by
    have parts := (Json.validUtf8_array _).mp sound.2.1
    exact parts result (by simp)
  have finite : result.Finite := by
    have parts := (Json.finite_array _).mp sound.2.2
    exact parts result (by simp)
  obtain ⟨printed, dumped, read⟩ := lawful.parse_dump result wellFormed valid
  rw [finite.scrub_eq] at read
  exact ⟨printed, dumped, read⟩

/-- Every reply of the form `[1, id, error, result]` is decoded. -/
theorem decodeResponse_reply (lawful : env.json.Lawful) {body id : Str} {error result : Json}
    (parsed : env.json.parse (cString body) =
      some (.array [.int 1, .string id, error, result])) :
    ∃ text, decodeResponse env body = .ok (copyError error [], text) ∧
      env.json.parse text = some result := by
  obtain ⟨text, dumped, read⟩ := dump_result lawful parsed
  exact ⟨text, decodeResponse_of_dump parsed dumped, read⟩

theorem finishCall_error {error result : Str} (failed : error ≠ []) :
    finishCall env (error, result) = throwing (.runtimeError error) := by
  unfold finishCall
  simp [failed]

theorem finishCall_success (result : Str) :
    finishCall env ([], result) = jsonParse env result :=
  rfl

/-- What the call waiting for such a reply does. -/
theorem callOutcome_reply (lawful : env.json.Lawful) {body id : Str} {error result : Json}
    (parsed : env.json.parse (cString body) =
      some (.array [.int 1, .string id, error, result])) :
    callOutcome env body =
      if copyError error [] = [] then .ok result
      else throwing (.runtimeError (copyError error [])) := by
  obtain ⟨text, decoded, read⟩ := decodeResponse_reply lawful parsed
  unfold callOutcome
  rw [decoded, ok_bind]
  by_cases success : copyError error [] = []
  · rw [if_pos success, success, finishCall_success]
    exact jsonParse_eq_ok.mpr read
  · rw [if_neg success]
    exact finishCall_error success

/-- An error component that stands for a failure. -/
def ReportsFailure (error : Json) : Prop :=
  error ≠ .null ∧ error ≠ .string []

/-- The call throws when the reply reports a failure, and otherwise returns
the result unchanged. -/
def FailureReported (env : Env) (body : Str) (error result : Json) : Prop :=
  (ReportsFailure error → ∃ exception, callOutcome env body = throwing exception) ∧
    (¬ ReportsFailure error → callOutcome env body = .ok result)

/-- A failure is reported as one exactly when the peer encodes errors as
strings. -/
theorem failureReported_iff (lawful : env.json.Lawful) {body id : Str} {error result : Json}
    (parsed : env.json.parse (cString body) =
      some (.array [.int 1, .string id, error, result])) :
    FailureReported env body error result ↔
      error = .null ∨ ∃ text, error = .string text := by
  have outcome := callOutcome_reply lawful parsed
  constructor
  · intro reported
    by_cases isNull : error = .null
    · exact Or.inl isNull
    by_cases isString : ∃ text, error = .string text
    · exact Or.inr isString
    exfalso
    have failure : ReportsFailure error := by
      refine ⟨isNull, fun isEmpty => ?_⟩
      exact isString ⟨[], isEmpty⟩
    have noText : copyError error [] = [] := by
      cases error using Json.casesOn with
      | string text => exact absurd ⟨text, rfl⟩ isString
      | _ => rfl
    obtain ⟨exception, thrown⟩ := reported.1 failure
    rw [outcome, if_pos noText] at thrown
    cases thrown
  · intro shape
    rcases shape with isNull | ⟨text, isString⟩
    · subst isNull
      have noText : copyError .null [] = [] := rfl
      refine ⟨fun failure => absurd rfl failure.1, fun _ => ?_⟩
      rw [outcome, if_pos noText]
    · subst isString
      constructor
      · intro failure
        have nonempty : copyError (.string text) [] ≠ [] := by
          intro isEmpty
          exact failure.2 (congrArg Json.string isEmpty)
        refine ⟨.runtimeError text, ?_⟩
        rw [outcome, if_neg nonempty]
        rfl
      · intro success
        have isEmpty : copyError (.string text) [] = [] := by
          by_contra nonempty
          apply success
          refine ⟨by simp, fun same => ?_⟩
          injection same with isEmpty
          exact nonempty isEmpty
        rw [outcome, if_pos isEmpty]

/-- A reply with a packed exception. -/
def packedErrorReply : Str :=
  ascii "[1,\"corr-1\",[\"boom\"],3]"

theorem failureReported_iff_packedError :
    FailureReported ⟨codec, false⟩ packedErrorReply (.array [.string (ascii "boom")]) (.int 3) ↔
      Json.array [.string (ascii "boom")] = .null ∨
        ∃ text, Json.array [.string (ascii "boom")] = .string text :=
  @failureReported_iff ⟨codec, false⟩ codec_lawful packedErrorReply (ascii "corr-1") _ _ rfl

/-- The call returns the result of a reply whose error is a packed exception. -/
theorem not_failureReported_packedError :
    ¬ ∀ (body id : Str) (error result : Json),
      codec.parse (cString body) = some (.array [.int 1, .string id, error, result]) →
        FailureReported ⟨codec, false⟩ body error result := by
  intro reported
  have parsed : codec.parse (cString packedErrorReply) =
      some (.array [.int 1, .string (ascii "corr-1"), .array [.string (ascii "boom")], .int 3]) :=
    rfl
  have failure : ReportsFailure (.array [.string (ascii "boom")]) := by
    constructor <;> simp
  obtain ⟨exception, thrown⟩ := (reported _ _ _ _ parsed).1 failure
  have lawful : (Env.mk codec false).json.Lawful := codec_lawful
  rw [callOutcome_reply lawful parsed] at thrown
  cases thrown

end Ccmqsrv
