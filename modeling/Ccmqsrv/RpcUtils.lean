import Ccmqsrv.Exc

/-!
# Encoding and decoding of messages

A request is the JSON array `[0, id, method, arguments, keywords]` and a reply
is `[1, id, error, result]`.  The server reads a request through
dynamically typed values (`std::any`); the client reads a reply directly as
JSON.
-/

namespace Ccmqsrv

open Foundations

/-- `std::any`, restricted to the types `_parse_json_element` stores in it. -/
inductive Any where
  | int (value : Int32)
  | double (value : Double)
  | string (text : Str)
  | bool (value : Bool)
  | null
  | vec (elements : List Any)
  | map (members : List (Str × Any))

mutual

/-- `_parse_json_element` -/
def parseJsonElement : Json → Any
  | .object members => .map (parseMembers [] members)
  | .array elements => .vec (parseElements elements)
  | .string text => .string text
  | .int value => .int (Int32.ofInt value)
  | .float value => .double value
  | .bool value => .bool value
  | .null => .null

def parseElements : List Json → List Any
  | [] => []
  | element :: rest => parseJsonElement element :: parseElements rest

/-- The loop over `items()`: every member is assigned to the map built so far. -/
def parseMembers : List (Str × Any) → List (Str × Json) → List (Str × Any)
  | obj, [] => obj
  | obj, (key, value) :: rest =>
      parseMembers (assign key (parseJsonElement value) obj) rest

end

/-- What a range-based `for` over a document visits: the elements of an array,
the values of an object, a scalar itself, nothing for `null`. -/
def jsonItems : Json → List Json
  | .array elements => elements
  | .object members => members.map Prod.snd
  | .null => []
  | scalar => [scalar]

/-- `json_loadb` -/
def jsonLoadb (env : Env) (jsonString : Str) : Cpp (List Any) := do
  let jsonData ← jsonParse env jsonString
  return parseElements (jsonItems jsonData)

/-- `rpc_encode_req` -/
def rpcEncodeReq (env : Env) (msgid meth : Str) (args : List Json) : Cpp Str :=
  jsonDump env (.array [.int 0, .string msgid, .string meth, .array args, .object []])

/-- `std::any_cast`: `read` recognises the values whose stored type is the
target type. -/
def anyCast {α : Type} (read : Any → Option α) (value : Any) : Cpp α :=
  match read value with
  | some result => .ok result
  | none => throwing .badAnyCast

namespace Any

def asInt : Any → Option Int32
  | .int value => some value
  | _ => none

def asDouble : Any → Option Double
  | .double value => some value
  | _ => none

def asString : Any → Option Str
  | .string text => some text
  | _ => none

def asBool : Any → Option Bool
  | .bool value => some value
  | _ => none

def asNull : Any → Option Unit
  | .null => some ()
  | _ => none

def asVec : Any → Option (List Any)
  | .vec elements => some elements
  | _ => none

def asMap : Any → Option (List (Str × Any))
  | .map members => some members
  | _ => none

end Any

/-- The output parameters of `rpc_decode_req`. -/
structure Request where
  msgid : Str
  meth : Str
  args : List Any
  kws : List (Str × Any)

/-- `rpc_decode_req` -/
def rpcDecodeReq (env : Env) (data : List Any) (checkId : Str) : Cpp Request := do
  let typ ← anyCast Any.asInt (← subscript data 0)
  assertion env (typ == 0)
  let msgid ← anyCast Any.asString (← subscript data 1)
  assertion env (checkId.isEmpty || msgid == checkId)
  let meth ← anyCast Any.asString (← subscript data 2)
  let args ← anyCast Any.asVec (← subscript data 3)
  let kws ← anyCast Any.asMap (← subscript data 4)
  return { msgid, meth, args, kws }

/-- `json_data[index]` on a document that is not constant: `null` is turned
into an array, and an array is extended with `null` up to the index. -/
def jsonAt : Json → Nat → Cpp Json
  | .array elements, index => .ok (elements[index]?.getD .null)
  | .null, _ => .ok .null
  | _, _ => throwing .jsonException

/-- `get<int>()`: every number and every boolean converts.  The conversion of
a float outside the range of `int` is undefined. -/
def getInt : Json → Cpp Int32
  | .int value => .ok (Int32.ofInt value)
  | .bool value => .ok (if value then 1 else 0)
  | .float value =>
      if -2 ^ 31 ≤ value.truncate ∧ value.truncate < 2 ^ 31 then
        .ok (Int32.ofInt value.truncate)
      else
        .error .undefined
  | _ => throwing .jsonException

/-- `get<string>()` -/
def getString : Json → Cpp Str
  | .string text => .ok text
  | _ => throwing .jsonException

/-- The error text after `if (!json_data[2].is_null() && json_data[2].is_string())`:
only a string overwrites what the caller passed in. -/
def copyError (component : Json) (error : Str) : Str :=
  match component with
  | .string text => text
  | _ => error

/-- `rpc_decode_rep` -/
def rpcDecodeRep (env : Env) (data error checkId : Str) : Cpp (Str × Str) := do
  let jsonData ← jsonParse env data
  let typ ← getInt (← jsonAt jsonData 0)
  assertion env (typ == 1)
  let msgid ← getString (← jsonAt jsonData 1)
  assertion env (checkId.isEmpty || msgid == checkId)
  let error := copyError (← jsonAt jsonData 2) error
  let result ← jsonDump env (← jsonAt jsonData 3)
  return (error, result)

section ParseJsonElement

theorem parseElements_eq_map (elements : List Json) :
    parseElements elements = elements.map parseJsonElement := by
  induction elements with
  | nil => rfl
  | cons element rest inductionHypothesis =>
      rw [parseElements, inductionHypothesis, List.map_cons]

theorem parseMembers_eq_foldl (members : List (Str × Json)) :
    ∀ obj : List (Str × Any),
      parseMembers obj members =
        (members.map fun member => (member.1, parseJsonElement member.2)).foldl
          (fun current entry => assign entry.1 entry.2 current) obj := by
  induction members with
  | nil =>
      intro obj
      rw [parseMembers]
      rfl
  | cons member rest inductionHypothesis =>
      intro obj
      rw [parseMembers, inductionHypothesis, List.map_cons, List.foldl_cons]

/-- The loop rebuilds the members of a well-formed object in their order. -/
theorem parseMembers_of_sorted {members : List (Str × Json)}
    (sorted : KeySorted members) :
    parseMembers [] members =
      members.map fun member => (member.1, parseJsonElement member.2) := by
  rw [parseMembers_eq_foldl]
  apply foldl_assign_of_sorted
  rw [List.nil_append]
  unfold KeySorted at *
  rw [List.pairwise_map]
  exact sorted

/-- The map is empty exactly when the object is. -/
theorem parseMembers_eq_nil {members : List (Str × Json)} :
    parseMembers [] members = [] ↔ members = [] := by
  rw [parseMembers_eq_foldl, foldl_assign_eq_nil]
  simp

variable {document : Json}

theorem parseJsonElement_eq_int {value : Int32} :
    parseJsonElement document = .int value ↔
      ∃ source, document = .int source ∧ Int32.ofInt source = value := by
  cases document using Json.casesOn <;> simp [parseJsonElement]

theorem parseJsonElement_eq_string {text : Str} :
    parseJsonElement document = .string text ↔ document = .string text := by
  cases document using Json.casesOn <;> simp [parseJsonElement]

theorem parseJsonElement_eq_vec {elements : List Any} :
    parseJsonElement document = .vec elements ↔
      ∃ source, document = .array source ∧ source.map parseJsonElement = elements := by
  cases document using Json.casesOn <;> simp [parseJsonElement, parseElements_eq_map]

theorem parseJsonElement_eq_map {members : List (Str × Any)} :
    parseJsonElement document = .map members ↔
      ∃ source, document = .object source ∧ parseMembers [] source = members := by
  cases document using Json.casesOn <;> simp [parseJsonElement]

end ParseJsonElement

theorem anyCast_eq_ok {α : Type} {read : Any → Option α} {value : Any} {result : α} :
    anyCast read value = .ok result ↔ read value = some result := by
  unfold anyCast throwing
  cases read value <;> simp

namespace Any

theorem asInt_eq_some {value : Any} {result : Int32} :
    value.asInt = some result ↔ value = .int result := by
  cases value <;> simp [asInt]

theorem asString_eq_some {value : Any} {result : Str} :
    value.asString = some result ↔ value = .string result := by
  cases value <;> simp [asString]

theorem asVec_eq_some {value : Any} {result : List Any} :
    value.asVec = some result ↔ value = .vec result := by
  cases value <;> simp [asVec]

theorem asMap_eq_some {value : Any} {result : List (Str × Any)} :
    value.asMap = some result ↔ value = .map result := by
  cases value <;> simp [asMap]

end Any

theorem jsonLoadb_eq_ok {env : Env} {text : Str} {data : List Any} :
    jsonLoadb env text = .ok data ↔
      ∃ document, env.json.parse text = some document ∧
        (jsonItems document).map parseJsonElement = data := by
  unfold jsonLoadb
  simp only [bind_eq_ok, jsonParse_eq_ok, parseElements_eq_map]
  simp [pure, Except.pure]

/-- What a request must look like for `rpc_decode_req` to return, and what it
returns. -/
theorem rpcDecodeReq_eq_ok {env : Env} {data : List Any} {checkId : Str}
    {request : Request} :
    rpcDecodeReq env data checkId = .ok request ↔
      (∃ typ, data[0]? = some (.int typ) ∧ (typ = 0 ∨ env.ndebug = true)) ∧
      data[1]? = some (.string request.msgid) ∧
      (checkId = [] ∨ request.msgid = checkId ∨ env.ndebug = true) ∧
      data[2]? = some (.string request.meth) ∧
      data[3]? = some (.vec request.args) ∧
      data[4]? = some (.map request.kws) := by
  unfold rpcDecodeReq
  simp only [bind_eq_ok, subscript_eq_ok, anyCast_eq_ok, Any.asInt_eq_some,
    Any.asString_eq_some, Any.asVec_eq_some, Any.asMap_eq_some, assertion_eq_ok]
  constructor
  · rintro ⟨_, zeroth, typ, rfl, _, typeOk, _, first, msgid, rfl, _, idOk,
      _, second, meth, rfl, _, third, args, rfl, _, fourth, kws, rfl, returned⟩
    cases returned
    refine ⟨⟨typ, zeroth, ?_⟩, first, ?_, second, third, fourth⟩
    · simpa using typeOk
    · simpa [or_assoc] using idOk
  · rintro ⟨⟨typ, zeroth, typeOk⟩, first, idOk, second, third, fourth⟩
    refine ⟨_, zeroth, typ, rfl, (), ?_, _, first, _, rfl, (), ?_,
      _, second, _, rfl, _, third, _, rfl, _, fourth, _, rfl, rfl⟩
    · simpa using typeOk
    · simpa [or_assoc] using idOk

theorem requestDocument_wellFormed {msgid meth : Str} {args : List Json}
    (wellFormed : ∀ argument ∈ args, argument.WellFormed) :
    Json.WellFormed
      (.array [.int 0, .string msgid, .string meth, .array args, .object []]) := by
  unfold Json.WellFormed at *
  simpa using wellFormed

/-- What the server reads of an encoded request. -/
theorem parse_of_rpcEncodeReq {env : Env} (lawful : env.json.Lawful) {msgid meth text : Str}
    {args : List Json} (wellFormed : ∀ argument ∈ args, argument.WellFormed)
    (encoded : rpcEncodeReq env msgid meth args = .ok text) :
    env.json.parse text = some (.array
      [.int 0, .string msgid, .string meth, .array (args.map Json.scrub), .object []]) := by
  have parsed :=
    lawful.parse_of_dump (requestDocument_wellFormed wellFormed) (jsonDump_eq_ok.mp encoded)
  simpa using parsed

end Ccmqsrv
