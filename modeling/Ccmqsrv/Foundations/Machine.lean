import Mathlib.Data.List.Induction
import Mathlib.Logic.Relation

/-!
# State machines and their guarded runs

A machine is an initial state with a partial step function: an action either
leads to one next state or cannot be taken.  Choices of a scheduler or of the
environment are part of the action.

A run is guarded when every action taken in it was allowed in the state before
it.  A guard that allows everything gives all runs; a guard that forbids a
branch of the step function gives the runs that never take that branch.
-/

namespace Ccmqsrv.Foundations

variable {σ α τ β : Type}

/-- An initial state and a partial step function. -/
structure Machine (σ α : Type) where
  init : σ
  step : σ → α → Option σ

namespace Machine

/-- `trace` leads from the initial state to the state given, and `guard`
allowed each of its actions. -/
inductive Run (machine : Machine σ α) (guard : σ → α → Prop) : List α → σ → Prop
  | start : Run machine guard [] machine.init
  | next {trace : List α} {state after : σ} {action : α} :
      Run machine guard trace state → guard state action →
        machine.step state action = some after →
          Run machine guard (trace ++ [action]) after

/-- The guard of a run that may take any action. -/
def always : σ → α → Prop :=
  fun _ _ => True

/-- States that some run ends in. -/
def Reachable (machine : Machine σ α) (state : σ) : Prop :=
  ∃ trace, machine.Run always trace state

variable {machine : Machine σ α} {guard : σ → α → Prop}

/-- What holds at the start and is kept by each allowed step holds at the end
of every guarded run. -/
theorem Run.invariant (holds : List α → σ → Prop)
    (init : holds [] machine.init)
    (keep : ∀ {trace state after action}, machine.Run guard trace state →
      holds trace state → guard state action →
        machine.step state action = some after → holds (trace ++ [action]) after)
    {trace : List α} {state : σ} (run : machine.Run guard trace state) :
    holds trace state := by
  induction run with
  | start =>
      exact init
  | next earlier allowed stepped inductionHypothesis =>
      exact keep earlier inductionHypothesis allowed stepped

theorem Run.weaken {weaker : σ → α → Prop}
    (implies : ∀ {state action}, guard state action → weaker state action)
    {trace : List α} {state : σ} (run : machine.Run guard trace state) :
    machine.Run weaker trace state := by
  induction run with
  | start =>
      exact Run.start
  | next _ allowed stepped inductionHypothesis =>
      exact Run.next inductionHypothesis (implies allowed) stepped

theorem Run.reachable {trace : List α} {state : σ}
    (run : machine.Run guard trace state) : machine.Reachable state :=
  ⟨trace, run.weaken fun _ => trivial⟩

/-- What steps with good actions keep holds before every step of a run with good
actions. -/
theorem Run.kept (holds : σ → Prop) (good : α → Prop) (init : holds machine.init)
    (keep : ∀ {state after action}, holds state → good action →
      machine.step state action = some after → holds after)
    {trace : List α} {state : σ} (run : machine.Run guard trace state)
    (isGood : ∀ action ∈ trace, good action) :
    machine.Run (fun state action => guard state action ∧ holds state) trace state ∧
      holds state := by
  induction run with
  | start =>
      exact ⟨Run.start, init⟩
  | @next trace state after action _ allowed stepped inductionHypothesis =>
      obtain ⟨run, held⟩ := inductionHypothesis fun other member =>
        isGood other (List.mem_append_left _ member)
      have last := isGood action (List.mem_append_right _ (List.mem_singleton_self _))
      exact ⟨run.next ⟨allowed, held⟩ stepped, keep held last stepped⟩

theorem Reachable.start (machine : Machine σ α) : machine.Reachable machine.init :=
  ⟨[], Run.start⟩

theorem Reachable.next {state after : σ} {action : α}
    (reachable : machine.Reachable state)
    (stepped : machine.step state action = some after) : machine.Reachable after := by
  obtain ⟨trace, run⟩ := reachable
  exact ⟨trace ++ [action], run.next trivial stepped⟩

/-- An invariant of all runs. -/
theorem Reachable.invariant (holds : σ → Prop) (init : holds machine.init)
    (keep : ∀ {state after action}, machine.Reachable state → holds state →
      machine.step state action = some after → holds after)
    {state : σ} (reachable : machine.Reachable state) : holds state := by
  obtain ⟨trace, run⟩ := reachable
  refine run.invariant (fun _ state => holds state) init ?_
  intro _ _ _ _ earlier held _ stepped
  exact keep earlier.reachable held stepped

/-- Allowed steps lead from one state to another. -/
def Leads (machine : Machine σ α) (guard : σ → α → Prop) : σ → σ → Prop :=
  Relation.ReflTransGen fun state after =>
    ∃ action, guard state action ∧ machine.step state action = some after

theorem Leads.step {state after : σ} {action : α} (allowed : guard state action)
    (stepped : machine.step state action = some after) : machine.Leads guard state after :=
  Relation.ReflTransGen.single ⟨action, allowed, stepped⟩

theorem Leads.trans {state between after : σ} (first : machine.Leads guard state between)
    (second : machine.Leads guard between after) : machine.Leads guard state after :=
  Relation.ReflTransGen.trans first second

/-- What allowed steps keep is kept all the way. -/
theorem Leads.invariant {state final : σ} (leads : machine.Leads guard state final)
    (holds : σ → Prop) (init : holds state)
    (keep : ∀ {between after action}, holds between → guard between action →
      machine.step between action = some after → holds after) : holds final := by
  induction leads with
  | refl =>
      exact init
  | tail _ last inductionHypothesis =>
      obtain ⟨action, allowed, stepped⟩ := last
      exact keep inductionHypothesis allowed stepped

theorem Leads.reachable {state final : σ} (leads : machine.Leads guard state final)
    (reachable : machine.Reachable state) : machine.Reachable final := by
  refine leads.invariant machine.Reachable reachable ?_
  intro _ _ _ reached _ stepped
  exact reached.next stepped

theorem Leads.weaken {weaker : σ → α → Prop}
    (implies : ∀ {state action}, guard state action → weaker state action) {state final : σ}
    (leads : machine.Leads guard state final) : machine.Leads weaker state final := by
  refine leads.invariant (machine.Leads weaker state) Relation.ReflTransGen.refl ?_
  intro _ _ _ earlier allowed stepped
  exact earlier.trans (Leads.step (implies allowed) stepped)

/-- Allowed steps continue a run. -/
theorem Leads.run {state final : σ} (leads : machine.Leads guard state final) {trace : List α}
    (run : machine.Run guard trace state) : ∃ more, machine.Run guard (trace ++ more) final := by
  refine leads.invariant (fun between => ∃ more, machine.Run guard (trace ++ more) between) ?_ ?_
  · exact ⟨[], (List.append_nil trace).symm ▸ run⟩
  · intro _ _ action earlier allowed stepped
    obtain ⟨more, run⟩ := earlier
    refine ⟨more ++ [action], ?_⟩
    rw [← List.append_assoc]
    exact run.next allowed stepped

/-- Steps that can be taken and make a measure smaller lead to where it is zero. -/
theorem Leads.of_measure (measure : σ → Nat) (holds : σ → Prop)
    (progress : ∀ {state}, holds state → measure state ≠ 0 →
      ∃ after, machine.Leads guard state after ∧ holds after ∧ measure after < measure state)
    {state : σ} (init : holds state) :
    ∃ final, machine.Leads guard state final ∧ holds final ∧ measure final = 0 := by
  induction size : measure state using Nat.strongRecOn generalizing state with
  | ind size inductionHypothesis =>
      by_cases isZero : measure state = 0
      · exact ⟨state, Relation.ReflTransGen.refl, init, isZero⟩
      · obtain ⟨after, leads, held, smaller⟩ := progress init isZero
        obtain ⟨final, rest, heldFinal, done⟩ :=
          inductionHypothesis (measure after) (by omega) held rfl
        exact ⟨final, leads.trans rest, heldFinal, done⟩

/-- The state after a list of actions, if each of them can be taken. -/
def exec (machine : Machine σ α) : List α → σ → Option σ
  | [], state => some state
  | action :: rest, state => (machine.step state action).bind (machine.exec rest)

theorem Run.of_exec :
    ∀ {actions trace : List α} {state after : σ},
      (∀ state, ∀ action ∈ actions, guard state action) →
        machine.Run guard trace state → machine.exec actions state = some after →
          machine.Run guard (trace ++ actions) after
  | [], trace, state, after, _, run, executed => by
      cases executed
      rw [List.append_nil]
      exact run
  | action :: rest, trace, state, after, allowed, run, executed => by
      obtain ⟨between, stepped, remaining⟩ := Option.bind_eq_some_iff.mp executed
      have extended := run.next (allowed state action List.mem_cons_self) stepped
      have restAllowed : ∀ state, ∀ later ∈ rest, guard state later :=
        fun state later member => allowed state later (List.mem_cons_of_mem _ member)
      have complete := Run.of_exec restAllowed extended remaining
      rw [List.append_assoc] at complete
      exact complete

/-- A test of where a list of actions leads shows that a run leads there. -/
theorem Run.of_exec_any {actions : List α} {test : σ → Bool}
    (allowed : ∀ state, ∀ action ∈ actions, guard state action)
    (passed : ((machine.exec actions machine.init).any test) = true) :
    ∃ state, machine.Run guard actions state ∧ test state = true := by
  cases executed : machine.exec actions machine.init with
  | none =>
      rw [executed] at passed
      cases passed
  | some state =>
      rw [executed] at passed
      exact ⟨state, Run.of_exec allowed Run.start executed, passed⟩

/-- `exec` for as long as a test allows the actions. -/
def execWhile (machine : Machine σ α) (check : σ → α → Bool) : List α → σ → Option σ
  | [], state => some state
  | action :: rest, state =>
      if check state action then
        (machine.step state action).bind (machine.execWhile check rest)
      else
        none

theorem Run.of_execWhile {check : σ → α → Bool}
    (sound : ∀ state action, check state action = true → guard state action) :
    ∀ {actions trace : List α} {state after : σ},
      machine.Run guard trace state → machine.execWhile check actions state = some after →
        machine.Run guard (trace ++ actions) after
  | [], trace, state, after, run, executed => by
      cases executed
      rw [List.append_nil]
      exact run
  | action :: rest, trace, state, after, run, executed => by
      unfold execWhile at executed
      by_cases allowed : check state action = true
      · rw [if_pos allowed] at executed
        obtain ⟨between, stepped, remaining⟩ := Option.bind_eq_some_iff.mp executed
        have extended := run.next (sound state action allowed) stepped
        have complete := Run.of_execWhile sound extended remaining
        rw [List.append_assoc] at complete
        exact complete
      · rw [if_neg allowed] at executed
        cases executed

/-- A test of where a checked list of actions leads shows that a guarded run
leads there. -/
theorem Run.of_execWhile_any {check : σ → α → Bool} {actions : List α} {test : σ → Bool}
    (sound : ∀ state action, check state action = true → guard state action)
    (passed : ((machine.execWhile check actions machine.init).any test) = true) :
    ∃ state, machine.Run guard actions state ∧ test state = true := by
  cases executed : machine.execWhile check actions machine.init with
  | none =>
      rw [executed] at passed
      cases passed
  | some state =>
      rw [executed] at passed
      exact ⟨state, Run.of_execWhile sound Run.start executed, passed⟩

theorem Reachable.of_exec {actions : List α} {state : σ}
    (executed : machine.exec actions machine.init = some state) :
    machine.Reachable state :=
  ⟨actions, Run.of_exec (fun _ _ _ => trivial) Run.start executed⟩

/-- The run up to one of its actions. -/
theorem Run.split {before after : List α} {action : α} {final : σ}
    (run : machine.Run guard (before ++ action :: after) final) :
    ∃ state next, machine.Run guard before state ∧ guard state action ∧
      machine.step state action = some next := by
  induction after using List.reverseRecOn generalizing final with
  | nil =>
      generalize same : before ++ [action] = trace at run
      cases run with
      | start =>
          exact absurd same (List.append_ne_nil_of_right_ne_nil _ (List.cons_ne_nil _ _))
      | next earlier allowed stepped =>
          obtain ⟨rfl, sameAction⟩ := List.append_inj' same rfl
          injection sameAction with sameAction
          subst sameAction
          exact ⟨_, _, earlier, allowed, stepped⟩
  | append_singleton rest last inductionHypothesis =>
      generalize same : before ++ action :: (rest ++ [last]) = trace at run
      rw [← List.cons_append, ← List.append_assoc] at same
      cases run with
      | start =>
          exact absurd same (List.append_ne_nil_of_right_ne_nil _ (List.cons_ne_nil _ _))
      | next earlier allowed stepped =>
          obtain ⟨rfl, _⟩ := List.append_inj' same rfl
          exact inductionHypothesis earlier

/-- What can be seen along actions, if each step shows some events. -/
def observe (machine : Machine σ α) (shows : σ → α → σ → List β) : List α → σ → List β
  | [], _ => []
  | action :: rest, state =>
      match machine.step state action with
      | none => []
      | some after => shows state action after ++ machine.observe shows rest after

private theorem observe_append {shows : σ → α → σ → List β} {last : α} :
    ∀ {actions : List α} {start state after : σ}, machine.exec actions start = some state →
      machine.step state last = some after →
        machine.observe shows (actions ++ [last]) start =
          machine.observe shows actions start ++ shows state last after
  | [], start, state, after, executed, stepped => by
      cases executed
      simp [observe, stepped]
  | action :: rest, start, state, after, executed, stepped => by
      obtain ⟨between, first, remaining⟩ := Option.bind_eq_some_iff.mp executed
      simp only [List.cons_append, observe, first]
      rw [observe_append remaining stepped, List.append_assoc]

private theorem exec_append {last : α} :
    ∀ {actions : List α} {start state after : σ}, machine.exec actions start = some state →
      machine.step state last = some after → machine.exec (actions ++ [last]) start = some after
  | [], start, state, after, executed, stepped => by
      cases executed
      simp [exec, stepped]
  | action :: rest, start, state, after, executed, stepped => by
      obtain ⟨between, first, remaining⟩ := Option.bind_eq_some_iff.mp executed
      exact Option.bind_eq_some_iff.mpr ⟨between, first, exec_append remaining stepped⟩

theorem Run.exec_eq {trace : List α} {state : σ} (run : machine.Run guard trace state) :
    machine.exec trace machine.init = some state := by
  induction run with
  | start =>
      rfl
  | next _ _ stepped inductionHypothesis =>
      exact exec_append inductionHypothesis stepped

/-- A run that goes on shows what its last step shows. -/
theorem Run.observe_next {shows : σ → α → σ → List β} {trace : List α} {state after : σ}
    {action : α} (run : machine.Run guard trace state)
    (stepped : machine.step state action = some after) :
    machine.observe shows (trace ++ [action]) machine.init =
      machine.observe shows trace machine.init ++ shows state action after :=
  observe_append run.exec_eq stepped

/-- A machine whose states record a history follows an abstract machine when
the events each allowed step adds to the history are a run of the abstract
machine between related states. -/
structure Simulation (machine : Machine σ α) (guard : σ → α → Prop)
    (abstraction : Machine τ β) where
  history : σ → List β
  related : σ → τ → Prop
  startHistory : history machine.init = []
  start : related machine.init abstraction.init
  follow : ∀ {state after action above},
    related state above → guard state action → machine.step state action = some after →
      ∃ events next, history after = history state ++ events ∧
        abstraction.exec events above = some next ∧ related after next

/-- The history of a guarded run is a run of the abstract machine. -/
theorem Simulation.run {abstraction : Machine τ β}
    (simulation : machine.Simulation guard abstraction)
    {trace : List α} {state : σ} (run : machine.Run guard trace state) :
    ∃ above, abstraction.Run always (simulation.history state) above ∧
      simulation.related state above := by
  refine run.invariant
    (fun _ state => ∃ above, abstraction.Run always (simulation.history state) above ∧
      simulation.related state above) ?_ ?_
  · refine ⟨abstraction.init, ?_, simulation.start⟩
    rw [simulation.startHistory]
    exact Run.start
  · intro _ _ _ _ _ held allowed stepped
    obtain ⟨above, reached, connected⟩ := held
    obtain ⟨events, next, grown, answered, reconnected⟩ :=
      simulation.follow connected allowed stepped
    refine ⟨next, ?_, reconnected⟩
    rw [grown]
    exact Run.of_exec (fun _ _ _ => trivial) reached answered

end Machine

end Ccmqsrv.Foundations
