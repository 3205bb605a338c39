import Ccmqsrv.RpcUtils

/-!
# Calling a registered function

A registered function of any signature is wrapped into one that takes the
decoded argument vector: `get_tuple` converts the vector to the tuple of
parameter types, the function is applied, and the returned value is stored in
the reply as the text of a one-element JSON array.
-/

namespace Ccmqsrv

open Foundations

/-- Parameter types of registered functions, after `std::decay`. -/
inductive ParamType where
  | int
  | double
  | string
  | bool
  | null
  | vec (valueType : ParamType)
  | map (mappedType : ParamType)
  deriving DecidableEq, Repr

namespace ParamType

/-- The values of a parameter type. -/
@[reducible]
def denote : ParamType → Type
  | .int => Int32
  | .double => Double
  | .string => Str
  | .bool => Bool
  | .null => Unit
  | .vec valueType => List valueType.denote
  | .map mappedType => OrderedMap Str mappedType.denote

/-- The value a component of a fresh `std::tuple` has. -/
def initial : (type : ParamType) → type.denote
  | .int => (0 : Int32)
  | .double => Double.zero
  | .string => ([] : Str)
  | .bool => false
  | .null => ()
  | .vec valueType => ([] : List valueType.denote)
  | .map mappedType => (OrderedMap.empty : OrderedMap Str mappedType.denote)

/-- What `std::any_cast` to the type accepts.  Containers are stored as
containers of `std::any`, which is never the type asked for. -/
def stored : (type : ParamType) → Any → Option type.denote
  | .int => Any.asInt
  | .double => Any.asDouble
  | .string => Any.asString
  | .bool => Any.asBool
  | .null => Any.asNull
  | .vec _ => fun _ => none
  | .map _ => fun _ => none

/-- `to_json` -/
def toJson : (type : ParamType) → type.denote → Json
  | .int, value => .int (Int32.toInt value)
  | .double, value => .float value
  | .string, text => .string text
  | .bool, value => .bool value
  | .null, _ => .null
  | .vec valueType, elements => .array (List.map valueType.toJson elements)
  | .map mappedType, members =>
      .object ((OrderedMap.entries members).map fun member =>
        (member.1, mappedType.toJson member.2))

theorem toJson_vec (valueType : ParamType) (elements : List valueType.denote) :
    toJson (.vec valueType) elements = .array (elements.map valueType.toJson) :=
  rfl

theorem toJson_map (mappedType : ParamType) (members : OrderedMap Str mappedType.denote) :
    toJson (.map mappedType) members =
      .object (members.entries.map fun member => (member.1, mappedType.toJson member.2)) :=
  rfl

end ParamType

/-- `std::tuple` of the parameter types. -/
def Tuple : List ParamType → Type
  | [] => Unit
  | type :: rest => type.denote × Tuple rest

/-- `t_[key] = std::any_cast<vt>(value)`, as an entry of the new map. -/
def castEntry (type : ParamType) (member : Str × Any) : Cpp (Str × type.denote) := do
  let value ← anyCast type.stored member.2
  return (member.1, value)

/-- The second branch of `getv`, taken when the stored type is not the
parameter type.  A scalar component keeps its value. -/
def convert : (type : ParamType) → Any → type.denote → Cpp type.denote
  | .vec valueType, data, _ => do
      let badAny ← anyCast Any.asVec data
      badAny.mapM (anyCast valueType.stored)
  | .map mappedType, data, _ => do
      let badAny ← anyCast Any.asMap data
      let entries ← badAny.mapM (castEntry mappedType)
      return OrderedMap.ofEntries entries
  | .int, _, component => .ok component
  | .double, _, component => .ok component
  | .string, _, component => .ok component
  | .bool, _, component => .ok component
  | .null, _, component => .ok component

theorem convert_vec (valueType : ParamType) (data : Any)
    (component : List valueType.denote) :
    convert (.vec valueType) data component =
      anyCast Any.asVec data >>= fun badAny => badAny.mapM (anyCast valueType.stored) :=
  rfl

theorem convert_map (mappedType : ParamType) (data : Any)
    (component : OrderedMap Str mappedType.denote) :
    convert (.map mappedType) data component =
      anyCast Any.asMap data >>= fun badAny =>
        badAny.mapM (castEntry mappedType) >>= fun entries =>
          .ok (OrderedMap.ofEntries entries) :=
  rfl

/-- `getv`: the new value of the tuple component. -/
def getv (type : ParamType) (data : Any) (component : type.denote) : Cpp type.denote :=
  match type.stored data with
  | some value => .ok value
  | none => convert type data component

/-- The components from `index` on. -/
def getComponents (data : List Any) : (params : List ParamType) → Nat → Cpp (Tuple params)
  | [], _ => .ok ()
  | type :: rest, index => do
      let component ← getv type (← subscript data index) type.initial
      let others ← getComponents data rest (index + 1)
      return (component, others)

/-- `get_tuple` -/
def getTuple (params : List ParamType) (data : List Any) : Cpp (Tuple params) :=
  getComponents data params 0

/-- What a registered function returns: nothing, or a value that `to_json`
turns into a document. -/
inductive Returned where
  | void
  | value (document : Json) (wellFormed : document.WellFormed)

/-- `call_helper` gives a function without a result the value `0`. -/
def Returned.document : Returned → Json
  | .void => .int 0
  | .value document _ => document

/-- A registered function, or a member function together with its object. -/
structure Handler where
  params : List ParamType
  func : Tuple params → Except Exn Returned

/-- `Res` -/
structure Res where
  type : Int32 := 1
  msgid : Str := []
  replyTo : Str := []
  result : Str := []
  error : Str := []

/-- An exception of a called function leaves the caller too. -/
def rethrowing {α : Type} : Except Exn α → Cpp α
  | .ok value => .ok value
  | .error exception => throwing exception

/-- A call of a registered function, with its converted arguments and what came
of it. -/
structure Invocation where
  f : Handler
  args : Tuple f.params
  returned : Except Exn Returned

/-- The calls of registered functions that a piece of the program made, and how
it ended. -/
structure Recorded (α : Type) where
  calls : List Invocation
  outcome : Cpp α

/-- What goes on with the outcome makes no call of its own. -/
def Recorded.andThen {α β : Type} (recorded : Recorded α) (next : Cpp α → Cpp β) : Recorded β where
  calls := recorded.calls
  outcome := next recorded.outcome

/-- `callproxy`: all overloads do the same. -/
def callproxy (env : Env) (f : Handler) (res : Res) (data : List Any) : Recorded Res :=
  match getTuple f.params data with
  | .error fault => { calls := [], outcome := .error fault }
  | .ok args =>
      let returned := f.func args
      { calls := [{ f, args, returned }]
        outcome := do
          let r ← rethrowing returned
          let result ← jsonDump env (.array [r.document])
          return { res with result } }

/-- The function is called as soon as its arguments are there. -/
theorem callproxy_of_args {env : Env} {f : Handler} {res : Res} {data : List Any}
    {args : Tuple f.params} (converted : getTuple f.params data = .ok args) :
    callproxy env f res data =
      { calls := [{ f, args, returned := f.func args }]
        outcome := rethrowing (f.func args) >>= fun r =>
          jsonDump env (.array [r.document]) >>= fun result => .ok { res with result } } := by
  unfold callproxy
  rw [converted]
  rfl

theorem callproxy_of_error {env : Env} {f : Handler} {res : Res} {data : List Any}
    {fault : Fault} (failed : getTuple f.params data = .error fault) :
    callproxy env f res data = { calls := [], outcome := .error fault } := by
  unfold callproxy
  rw [failed]

theorem Returned.document_wellFormed (returned : Returned) :
    returned.document.WellFormed := by
  cases returned with
  | void =>
      exact by decide
  | value document wellFormed =>
      exact wellFormed

end Ccmqsrv
