import Ccmqsrv.Foundations.Json

/-!
# Exceptions and faults

A piece of the program returns a value, or it ends in a fault: an exception
leaves it, an assertion aborts the process, or it does something the language
leaves undefined (an index outside a vector, a null pointer).

The build decides whether assertions are compiled in, and the JSON library is
a parameter, so both are fields of the environment.
-/

namespace Ccmqsrv

open Foundations

/-- `std::string`. -/
abbrev Str := Bytes

/-- The exception classes the program tells apart.  A class derived from
`std::runtime_error` is `runtimeError`; any other class that the program only
knows as `std::exception` is `stdException`. -/
inductive Exn where
  | runtimeError (message : Str)
  | badAnyCast
  | badFunctionCall
  | jsonException
  | baseException (code : Int32) (msg : Str)
  | stdException
  deriving DecidableEq, Repr

/-- How a piece of the program can fail to return. -/
inductive Fault where
  | thrown (exception : Exn)
  | abort
  | undefined
  deriving DecidableEq, Repr

/-- A computation that returns or ends in a fault. -/
abbrev Cpp := Except Fault

/-- What the program is built against. -/
structure Env where
  json : JsonText
  /-- `NDEBUG`: assertions are compiled out. -/
  ndebug : Bool

/-- `throw`. -/
def throwing {α : Type} (exception : Exn) : Cpp α :=
  .error (.thrown exception)

/-- `assert`. -/
def assertion (env : Env) (condition : Bool) : Cpp Unit :=
  if condition || env.ndebug then .ok () else .error .abort

/-- `data[index]` on a vector: nothing checks the index. -/
def subscript {α : Type} (data : List α) (index : Nat) : Cpp α :=
  match data[index]? with
  | some value => .ok value
  | none => .error .undefined

/-- `json::parse`. -/
def jsonParse (env : Env) (text : Str) : Cpp Json :=
  match env.json.parse text with
  | some document => .ok document
  | none => throwing .jsonException

/-- `dump`. -/
def jsonDump (env : Env) (document : Json) : Cpp Str :=
  match env.json.dump document with
  | some text => .ok text
  | none => throwing .jsonException

theorem bind_eq_ok {α β : Type} {first : Cpp α} {next : α → Cpp β} {result : β} :
    first >>= next = .ok result ↔ ∃ value, first = .ok value ∧ next value = .ok result := by
  cases first with
  | ok value =>
      constructor
      · intro returned
        exact ⟨value, rfl, returned⟩
      · rintro ⟨_, same, returned⟩
        cases same
        exact returned
  | error fault =>
      constructor
      · intro returned
        cases returned
      · rintro ⟨_, same, _⟩
        cases same

@[simp]
theorem ok_bind {α β : Type} (value : α) (next : α → Cpp β) :
    (Except.ok value : Cpp α) >>= next = next value :=
  rfl

@[simp]
theorem error_bind {α β : Type} (fault : Fault) (next : α → Cpp β) :
    (Except.error fault : Cpp α) >>= next = .error fault :=
  rfl

theorem assertion_eq_ok {env : Env} {condition : Bool} {done : Unit} :
    assertion env condition = .ok done ↔ condition = true ∨ env.ndebug = true := by
  unfold assertion
  rw [← Bool.or_eq_true]
  by_cases holds : (condition || env.ndebug) = true <;> simp [holds]

theorem subscript_eq_ok {α : Type} {data : List α} {index : Nat} {value : α} :
    subscript data index = .ok value ↔ data[index]? = some value := by
  unfold subscript
  cases data[index]? <;> simp

theorem jsonParse_eq_ok {env : Env} {text : Str} {document : Json} :
    jsonParse env text = .ok document ↔ env.json.parse text = some document := by
  unfold jsonParse throwing
  cases env.json.parse text <;> simp

theorem jsonDump_eq_ok {env : Env} {document : Json} {text : Str} :
    jsonDump env document = .ok text ↔ env.json.dump document = some text := by
  unfold jsonDump throwing
  cases env.json.dump document <;> simp

end Ccmqsrv
