import Mathlib.Logic.Relation
import Mathlib.Order.Basic

/-!
# Lock order

A thread that is about to acquire a lock waits for its owner.  Threads wait in
a circle only if some thread owns a lock and waits for one of the same or a
lower rank: along a chain of waiting threads the ranks go up.
-/

namespace Ccmqsrv.Foundations

variable {Thread Lock Rank : Type}

/-- The owner of each lock, and the lock each thread is about to acquire. -/
structure Locks (Thread Lock : Type) where
  owner : Lock → Option Thread
  awaits : Thread → Option Lock

namespace Locks

/-- The thread is about to acquire a lock that the other one owns. -/
def WaitsFor (locks : Locks Thread Lock) (waiter holder : Thread) : Prop :=
  ∃ lock, locks.awaits waiter = some lock ∧ locks.owner lock = some holder

/-- Threads that wait for each other in a circle. -/
def Deadlock (locks : Locks Thread Lock) : Prop :=
  ∃ thread, Relation.TransGen locks.WaitsFor thread thread

variable [Preorder Rank]

/-- Whoever owns a lock waits only for locks of a higher rank. -/
def Ordered (locks : Locks Thread Lock) (rank : Lock → Rank) : Prop :=
  ∀ thread owned awaited, locks.owner owned = some thread →
    locks.awaits thread = some awaited → rank owned < rank awaited

variable {locks : Locks Thread Lock} {rank : Lock → Rank}

/-- The ranks go up along a chain. -/
theorem Ordered.rank_lt (ordered : locks.Ordered rank) {first last : Thread}
    {lock higher : Lock} (chain : Relation.TransGen locks.WaitsFor first last)
    (awaits : locks.awaits first = some lock) (awaitsLast : locks.awaits last = some higher) :
    rank lock < rank higher := by
  induction chain generalizing higher with
  | single waits =>
      obtain ⟨awaited, same, owned⟩ := waits
      have sameLock : awaited = lock := Option.some.inj (same.symm.trans awaits)
      subst sameLock
      exact ordered _ awaited higher owned awaitsLast
  | tail _ waits inductionHypothesis =>
      obtain ⟨awaited, awaitsMiddle, owned⟩ := waits
      calc
        rank lock < rank awaited := inductionHypothesis awaitsMiddle
        _ < rank higher := ordered _ awaited higher owned awaitsLast

theorem Ordered.not_deadlock (ordered : locks.Ordered rank) : ¬ locks.Deadlock := by
  intro deadlock
  obtain ⟨thread, circle⟩ := deadlock
  obtain ⟨_, ⟨lock, awaits, _⟩, _⟩ := Relation.TransGen.head'_iff.mp circle
  exact lt_irrefl (rank lock) (ordered.rank_lt circle awaits awaits)

end Locks

end Ccmqsrv.Foundations
