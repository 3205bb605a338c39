import Mathlib.Logic.Function.Basic
import Ccmqsrv.Foundations.Machine

/-!
# A one-place mailbox

A mailbox holds at most one value.  Storing replaces what it holds.  A reader
first consumes the value, which empties the mailbox, and later receives it.  A
reader that finds the mailbox empty may expire.

The machine is deterministic and its actions are the events of a history, so a
history is legal when it is a run.  `Faithful` says what the legal histories
are in terms of the history alone.
-/

namespace Ccmqsrv.Foundations.Mailbox

variable {Reader Value : Type}

inductive Event (Reader Value : Type) where
  | stored (value : Value)
  | consumed (reader : Reader)
  | received (reader : Reader) (value : Value)
  | expired (reader : Reader)
  deriving DecidableEq

/-- What is in the mailbox, and what each reader has consumed and not yet
received. -/
structure Box (Reader Value : Type) where
  content : Option Value := none
  handed : Reader → Option Value := fun _ => none

/-- The last value stored and not consumed since. -/
def unconsumed (history : List (Event Reader Value)) : Option Value :=
  history.foldl (fun content event =>
    match event with
    | .stored value => some value
    | .consumed _ => none
    | .received _ _ => content
    | .expired _ => content) none

/-- The event neither puts a value into the mailbox nor takes one out. -/
def Event.KeepsContent : Event Reader Value → Prop
  | .stored _ => False
  | .consumed _ => False
  | .received _ _ => True
  | .expired _ => True

/-- The event neither hands a value to the reader nor delivers one to it. -/
def Event.Leaves (reader : Reader) : Event Reader Value → Prop
  | .stored _ => True
  | .consumed other => other ≠ reader
  | .received other _ => other ≠ reader
  | .expired _ => True

/-- The history ends with the value in the mailbox. -/
def Holds (history : List (Event Reader Value)) (value : Value) : Prop :=
  ∃ before after, history = before ++ .stored value :: after ∧
    ∀ event ∈ after, event.KeepsContent

/-- The history ends with the value consumed by the reader, who has not
received it. -/
def Hands (history : List (Event Reader Value)) (reader : Reader) (value : Value) : Prop :=
  ∃ before after, history = before ++ .consumed reader :: after ∧ Holds before value ∧
    ∀ event ∈ after, event.Leaves reader

/-- A value is received only by the reader that consumed it, and a reader
expires only when nothing is in the mailbox. -/
structure Faithful (history : List (Event Reader Value)) : Prop where
  received : ∀ before reader value after,
    history = before ++ .received reader value :: after → Hands before reader value
  expired : ∀ before reader after,
    history = before ++ .expired reader :: after → unconsumed before = none

theorem unconsumed_append (history : List (Event Reader Value)) (event : Event Reader Value) :
    unconsumed (history ++ [event]) =
      match event with
      | .stored value => some value
      | .consumed _ => none
      | .received _ _ => unconsumed history
      | .expired _ => unconsumed history := by
  unfold unconsumed
  rw [List.foldl_append]
  cases event <;> rfl

variable {history : List (Event Reader Value)} {reader : Reader} {value : Value}

theorem Holds.stored (history : List (Event Reader Value)) (value : Value) :
    Holds (history ++ [.stored value]) value :=
  ⟨history, [], rfl, by simp⟩

theorem Holds.append (holds : Holds history value) {event : Event Reader Value}
    (keeps : event.KeepsContent) : Holds (history ++ [event]) value := by
  obtain ⟨before, after, same, kept⟩ := holds
  refine ⟨before, after ++ [event], by simp [same], ?_⟩
  intro later member
  rcases List.mem_append.mp member with earlier | last
  · exact kept later earlier
  · rw [List.mem_singleton.mp last]
    exact keeps

theorem Hands.consumed (holds : Holds history value) (reader : Reader) :
    Hands (history ++ [.consumed reader]) reader value :=
  ⟨history, [], rfl, holds, by simp⟩

theorem Hands.append (hands : Hands history reader value) {event : Event Reader Value}
    (leaves : event.Leaves reader) : Hands (history ++ [event]) reader value := by
  obtain ⟨before, after, same, holds, left⟩ := hands
  refine ⟨before, after ++ [event], by simp [same], holds, ?_⟩
  intro later member
  rcases List.mem_append.mp member with earlier | last
  · exact left later earlier
  · rw [List.mem_singleton.mp last]
    exact leaves

variable [DecidableEq Reader] [DecidableEq Value]

def step (box : Box Reader Value) : Event Reader Value → Option (Box Reader Value)
  | .stored value => some { box with content := some value }
  | .consumed reader =>
      match box.content with
      | some value => some
          { content := none, handed := Function.update box.handed reader (some value) }
      | none => none
  | .received reader value =>
      if box.handed reader = some value then
        some { box with handed := Function.update box.handed reader none }
      else
        none
  | .expired _ => if box.content = none then some box else none

/-- The mailbox. -/
def machine : Machine (Box Reader Value) (Event Reader Value) where
  init := {}
  step := step

/-- The box is what the history made of it. -/
structure Explained (history : List (Event Reader Value)) (box : Box Reader Value) : Prop where
  content_eq : box.content = unconsumed history
  holds : ∀ value, box.content = some value → Holds history value
  hands : ∀ reader value, box.handed reader = some value → Hands history reader value

private theorem Explained.next {box after : Box Reader Value} {event : Event Reader Value}
    (explained : Explained history box) (stepped : step box event = some after) :
    Explained (history ++ [event]) after := by
  have content := unconsumed_append history event
  cases event with
  | stored value =>
      cases stepped
      refine ⟨content.symm, fun other same => ?_, fun reader other handed => ?_⟩
      · cases same
        exact Holds.stored history value
      · exact (explained.hands reader other handed).append trivial
  | consumed reader =>
      cases full : box.content with
      | none =>
          simp [step, full] at stepped
      | some value =>
          simp only [step, full, Option.some.injEq] at stepped
          subst stepped
          refine ⟨content.symm, fun other same => (nomatch same), fun other value' handed => ?_⟩
          by_cases same : other = reader
          · subst same
            simp only [Function.update_self] at handed
            cases handed
            exact Hands.consumed (explained.holds value full) other
          · simp only [Function.update_of_ne same] at handed
            have different : reader ≠ other := fun equal => same equal.symm
            exact (explained.hands other value' handed).append different
  | received reader value =>
      by_cases given : box.handed reader = some value
      · simp only [step, if_pos given, Option.some.injEq] at stepped
        subst stepped
        refine ⟨explained.content_eq.trans content.symm, fun other same => ?_,
          fun other value' handed => ?_⟩
        · exact (explained.holds other same).append trivial
        · by_cases same : other = reader
          · subst same
            simp only [Function.update_self] at handed
            cases handed
          · simp only [Function.update_of_ne same] at handed
            have different : reader ≠ other := fun equal => same equal.symm
            exact (explained.hands other value' handed).append different
      · simp [step, if_neg given] at stepped
  | expired reader =>
      by_cases empty : box.content = none
      · simp only [step, if_pos empty, Option.some.injEq] at stepped
        subst stepped
        refine ⟨explained.content_eq.trans content.symm, fun other same => ?_,
          fun other value handed => ?_⟩
        · exact (explained.holds other same).append trivial
        · exact (explained.hands other value handed).append trivial
      · simp [step, if_neg empty] at stepped

theorem explained_of_run {box : Box Reader Value}
    (run : machine.Run Machine.always history box) : Explained history box := by
  refine run.invariant Explained ?_ ?_
  · exact ⟨rfl, fun _ same => (nomatch same), fun _ _ same => (nomatch same)⟩
  · intro _ _ _ _ _ held _ stepped
    exact held.next stepped

/-- The runs of the mailbox are faithful histories. -/
theorem faithful_of_run {box : Box Reader Value}
    (run : machine.Run Machine.always history box) : Faithful history := by
  constructor
  · intro before reader value after same
    rw [same] at run
    obtain ⟨earlier, next, reached, _, stepped⟩ := run.split
    apply (explained_of_run reached).hands
    by_contra notGiven
    simp [machine, step, if_neg notGiven] at stepped
  · intro before reader after same
    rw [same] at run
    obtain ⟨earlier, next, reached, _, stepped⟩ := run.split
    rw [← (explained_of_run reached).content_eq]
    by_contra full
    simp [machine, step, if_neg full] at stepped

end Ccmqsrv.Foundations.Mailbox
