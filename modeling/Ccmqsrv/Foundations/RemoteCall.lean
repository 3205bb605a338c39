import Ccmqsrv.Foundations.Log
import Mathlib.Data.List.Induction
import Mathlib.Data.List.Nodup

/-!
# Remote calls

What a caller may rely on, whatever carries its calls: a call is executed at
most once, and only with what was asked; it returns at most once, and only what
came of its execution.
-/

namespace Ccmqsrv.Foundations

variable {ι ρ ω υ : Type}

/-- What happens to calls, each with the id of its call. -/
inductive CallEvent (ι ρ ω υ : Type) where
  | asked (id : ι) (request : ρ)
  | executed (id : ι) (outcome : ω)
  | returned (id : ι) (value : υ)

/-- What an execution makes of a request, and a caller of an outcome. -/
structure CallRules (ρ ω υ : Type) where
  performs : ρ → ω → Prop
  yields : ω → υ → Prop

/-- The event may follow those before it. -/
def CallRules.Allows (rules : CallRules ρ ω υ) (before : List (CallEvent ι ρ ω υ)) :
    CallEvent ι ρ ω υ → Prop
  | .asked id _ => ∀ request, .asked id request ∉ before
  | .executed id outcome => (∀ other, .executed id other ∉ before) ∧
      ∃ request, .asked id request ∈ before ∧ rules.performs request outcome
  | .returned id value => (∀ other, .returned id other ∉ before) ∧
      ∃ outcome, .executed id outcome ∈ before ∧ rules.yields outcome value

/-- The calls of the history are remote calls. -/
def RemoteCalls (rules : CallRules ρ ω υ) (history : List (CallEvent ι ρ ω υ)) : Prop :=
  Preceded rules.Allows history

def CallEvent.executedId : CallEvent ι ρ ω υ → Option ι
  | .executed id _ => some id
  | _ => none

def CallEvent.execution : CallEvent ι ρ ω υ → Option (ι × ω)
  | .executed id outcome => some (id, outcome)
  | _ => none

/-- The calls of the history could have been made one after the other in this
order: each is executed once, returns what came of it, and comes after those
that had returned before it was asked for. -/
structure Linearizes (rules : CallRules ρ ω υ) (history : List (CallEvent ι ρ ω υ))
    (order : List (ι × ω)) : Prop where
  unique : (order.map Prod.fst).Nodup
  invoked : ∀ id outcome, (id, outcome) ∈ order →
    ∃ request, .asked id request ∈ history ∧ rules.performs request outcome
  completed : ∀ id value, .returned id value ∈ history →
    ∃ outcome, (id, outcome) ∈ order ∧ rules.yields outcome value
  realTime : ∀ id value other request outcome,
    Before history (.returned id value) (.asked other request) → (other, outcome) ∈ order →
      ∃ earlier, Before order (id, earlier) (other, outcome)

namespace RemoteCalls

variable {rules : CallRules ρ ω υ} {history : List (CallEvent ι ρ ω υ)} {id : ι}

private theorem of_append {last : CallEvent ι ρ ω υ} (calls : RemoteCalls rules (history ++ [last])) :
    RemoteCalls rules history ∧ rules.Allows history last := by
  constructor
  · intro before event later split
    refine calls before event (later ++ [last]) ?_
    rw [split, List.append_assoc, List.cons_append]
  · exact calls history last [] rfl

/-- No call is executed twice. -/
theorem executedIds_nodup (calls : RemoteCalls rules history) :
    (history.filterMap CallEvent.executedId).Nodup := by
  induction history using List.reverseRecOn with
  | nil => exact List.nodup_nil
  | append_singleton history last inductionHypothesis =>
      obtain ⟨earlier, allowed⟩ := calls.of_append
      have nodup := inductionHypothesis earlier
      rw [List.filterMap_append]
      cases last with
      | executed id outcome =>
          refine List.nodup_append.mpr ⟨nodup, List.nodup_singleton id, ?_⟩
          intro first isFirst second isSecond same
          cases List.mem_singleton.mp isSecond
          subst same
          obtain ⟨event, member, isId⟩ := List.mem_filterMap.mp isFirst
          cases event with
          | executed other outcome =>
              cases isId
              exact allowed.1 outcome member
          | asked other request => cases isId
          | returned other value => cases isId
      | asked id request =>
          show (history.filterMap CallEvent.executedId ++ []).Nodup
          rw [List.append_nil]
          exact nodup
      | returned id value =>
          show (history.filterMap CallEvent.executedId ++ []).Nodup
          rw [List.append_nil]
          exact nodup

/-- A call has one request. -/
theorem asked_unique (calls : RemoteCalls rules history) {first second : ρ}
    (isFirst : .asked id first ∈ history) (isSecond : .asked id second ∈ history) :
    first = second := by
  induction history using List.reverseRecOn with
  | nil => cases isFirst
  | append_singleton history last inductionHypothesis =>
      obtain ⟨earlier, allowed⟩ := calls.of_append
      rcases List.mem_append.mp isFirst with firstBefore | firstLast
      · rcases List.mem_append.mp isSecond with secondBefore | secondLast
        · exact inductionHypothesis earlier firstBefore secondBefore
        · cases List.mem_singleton.mp secondLast
          exact absurd firstBefore (allowed first)
      · cases List.mem_singleton.mp firstLast
        rcases List.mem_append.mp isSecond with secondBefore | secondLast
        · exact absurd secondBefore (allowed second)
        · cases List.mem_singleton.mp secondLast
          rfl

/-- What was returned came of an execution, which was asked for. -/
theorem of_returned (calls : RemoteCalls rules history) {value : υ}
    (returned : .returned id value ∈ history) :
    ∃ request outcome, .asked id request ∈ history ∧ .executed id outcome ∈ history ∧
      rules.performs request outcome ∧ rules.yields outcome value := by
  obtain ⟨before, later, split⟩ := List.append_of_mem returned
  obtain ⟨_, outcome, executed, yields⟩ := calls before _ later split
  obtain ⟨earlier, between, splitBefore⟩ := List.append_of_mem executed
  have splitAll : history = earlier ++ .executed id outcome :: (between ++ .returned id value :: later) := by
    rw [split, splitBefore, List.append_assoc, List.cons_append]
  obtain ⟨_, request, asked, performs⟩ := calls earlier _ _ splitAll
  refine ⟨request, outcome, ?_, ?_, performs, yields⟩
  · rw [splitAll]
    exact List.mem_append_left _ asked
  · rw [split]
    exact List.mem_append_left _ executed

/-- An event comes after the only request of its call. -/
private theorem asked_before (calls : RemoteCalls rules history)
    {before later earlier rest : List (CallEvent ι ρ ω υ)} {event : CallEvent ι ρ ω υ}
    {request : ρ} (split : history = before ++ .asked id request :: later)
    (other : history = earlier ++ event :: rest)
    (isAsked : ∃ request, .asked id request ∈ earlier) : before ⊆ earlier := by
  obtain ⟨asked, isAsked⟩ := isAsked
  rcases split_append (split.symm.trans other) with ⟨between, inBefore, _⟩ | ⟨between, same, _⟩
  · have twice : .asked id asked ∈ before := by
      rw [inBefore]
      exact List.mem_append_left _ isAsked
    exact absurd twice (calls before _ later split asked)
  · rw [same]
    exact List.subset_append_left before between

theorem mem_executions {outcome : ω} :
    (id, outcome) ∈ history.filterMap CallEvent.execution ↔ .executed id outcome ∈ history := by
  constructor
  · intro member
    obtain ⟨event, isEvent, shown⟩ := List.mem_filterMap.mp member
    cases event with
    | executed other found =>
        cases shown
        exact isEvent
    | asked other request => cases shown
    | returned other value => cases shown
  · exact fun executed => List.mem_filterMap.mpr ⟨_, executed, rfl⟩

private theorem map_executions :
    (history.filterMap CallEvent.execution).map Prod.fst =
      history.filterMap CallEvent.executedId := by
  rw [List.map_filterMap]
  refine List.filterMap_congr ?_
  intro event _
  cases event <;> rfl

/-- Remote calls can be put in the order of their executions. -/
theorem linearizes (calls : RemoteCalls rules history) :
    Linearizes rules history (history.filterMap CallEvent.execution) := by
  constructor
  · rw [map_executions]
    exact calls.executedIds_nodup
  · intro id outcome member
    obtain ⟨before, later, split⟩ := List.append_of_mem (mem_executions.mp member)
    obtain ⟨_, request, asked, performs⟩ := calls before _ later split
    refine ⟨request, ?_, performs⟩
    rw [split]
    exact List.mem_append_left _ asked
  · intro id value returned
    obtain ⟨_, outcome, _, executed, _, yields⟩ := calls.of_returned returned
    exact ⟨outcome, mem_executions.mpr executed, yields⟩
  · intro id value other request outcome order member
    obtain ⟨initial, between, rest, split⟩ := order
    obtain ⟨before, later, splitExecuted⟩ := List.append_of_mem (mem_executions.mp member)
    obtain ⟨_, earlier, executed, _⟩ := calls initial _ _ split
    obtain ⟨_, asked, isAsked, _⟩ := calls before _ later splitExecuted
    have splitAsked : history =
        (initial ++ .returned id value :: between) ++ .asked other request :: rest := by
      rw [split, List.append_assoc, List.cons_append]
    have within := calls.asked_before splitAsked splitExecuted ⟨asked, isAsked⟩
    have executedBefore : .executed id earlier ∈ before :=
      within (List.mem_append_left _ executed)
    refine ⟨earlier, ?_⟩
    rw [splitExecuted]
    exact (Before.of_mem executedBefore).filterMap rfl rfl

end RemoteCalls

end Ccmqsrv.Foundations
