import Mathlib.Data.List.Basic

/-!
# Mutexes and condition variables

A mutex is the thread that owns it, if any.  A condition variable is the list
of the threads that are blocked on it and have not been notified.

A notified thread is no longer in the list, and it is up to the scheduler when
it wakes up.  A thread still in the list may wake up as well: by a timeout, or
for no reason at all.
-/

namespace Ccmqsrv.Foundations

variable {Thread : Type}

/-- The owner of a mutex. -/
abbrev Mutex (Thread : Type) :=
  Option Thread

/-- The threads blocked on a condition variable and not notified. -/
abbrev CondVar (Thread : Type) :=
  List Thread

/-- Acquiring a mutex is possible when nobody owns it. -/
def Mutex.lock (mutex : Mutex Thread) (thread : Thread) : Option (Mutex Thread) :=
  match mutex with
  | none => some (some thread)
  | some _ => none

theorem Mutex.lock_eq_some {mutex after : Mutex Thread} {thread : Thread} :
    mutex.lock thread = some after ↔ mutex = none ∧ after = some thread := by
  cases mutex with
  | none =>
      simp [Mutex.lock, eq_comm]
  | some owner =>
      simp [Mutex.lock]

/-- The owner of the mutex is the thread that is inside a critical section. -/
def Mutex.Owned (mutex : Mutex Thread) (inside : Thread → Prop) : Prop :=
  ∀ thread, mutex = some thread ↔ inside thread

section Owned

variable {mutex : Mutex Thread} {inside after : Thread → Prop} {thread : Thread}

theorem Mutex.Owned.congr (owned : mutex.Owned inside)
    (same : ∀ thread, after thread ↔ inside thread) : mutex.Owned after := by
  intro thread
  rw [same]
  exact owned thread

theorem Mutex.Owned.unique (owned : mutex.Owned inside) {other : Thread}
    (left : inside thread) (right : inside other) : thread = other := by
  have first := (owned thread).mpr left
  rw [(owned other).mpr right] at first
  exact (Option.some.inj first).symm

theorem Mutex.Owned.acquire (owned : mutex.Owned inside) (free : mutex = none)
    (entered : after thread) (others : ∀ other, other ≠ thread → after other → inside other) :
    Mutex.Owned (some thread) after := by
  intro other
  constructor
  · intro same
    cases same
    exact entered
  · intro isInside
    by_contra different
    have notSame : other ≠ thread := fun same => different (congrArg some same.symm)
    have owner := (owned other).mpr (others other notSame isInside)
    rw [free] at owner
    cases owner

theorem Mutex.Owned.release (owned : mutex.Owned inside) (wasInside : inside thread)
    (leaves : ¬ after thread) (others : ∀ other, other ≠ thread → after other → inside other) :
    Mutex.Owned none after := by
  intro other
  constructor
  · intro impossible
    cases impossible
  · intro isInside
    exfalso
    by_cases same : other = thread
    · exact leaves (same ▸ isInside)
    · exact same (owned.unique (others other same isInside) wasInside)

end Owned

variable [DecidableEq Thread]

/-- A thread stops waiting. -/
def CondVar.leave (waiting : CondVar Thread) (thread : Thread) : CondVar Thread :=
  waiting.filter (· ≠ thread)

/-- `notify_one`: one blocked thread is notified, nobody if none is blocked. -/
def CondVar.notifyOne (waiting : CondVar Thread) :
    Option Thread → Option (CondVar Thread)
  | some chosen => if chosen ∈ waiting then some (waiting.leave chosen) else none
  | none => if waiting = [] then some [] else none

@[simp]
theorem CondVar.mem_leave {waiting : CondVar Thread} {thread other : Thread} :
    other ∈ waiting.leave thread ↔ other ∈ waiting ∧ other ≠ thread := by
  simp [CondVar.leave]

/-- What `notify_one` does. -/
theorem CondVar.notifyOne_eq_some {waiting after : CondVar Thread} {chosen : Option Thread} :
    waiting.notifyOne chosen = some after ↔
      (chosen = none ∧ waiting = [] ∧ after = []) ∨
        ∃ target, target ∈ waiting ∧ chosen = some target ∧ after = waiting.leave target := by
  cases chosen with
  | none =>
      simp [CondVar.notifyOne, eq_comm]
  | some target =>
      simp [CondVar.notifyOne, eq_comm]

/-- The only blocked thread is the one notified. -/
theorem CondVar.notifyOne_of_subsingleton {waiting after : CondVar Thread}
    {chosen : Option Thread} {only : Thread}
    (alone : ∀ thread ∈ waiting, thread = only)
    (notified : waiting.notifyOne chosen = some after) : after = [] := by
  rcases CondVar.notifyOne_eq_some.mp notified with ⟨_, _, rfl⟩ | ⟨target, blocked, _, rfl⟩
  · rfl
  · rw [List.eq_nil_iff_forall_not_mem]
    intro thread member
    have parts := CondVar.mem_leave.mp member
    apply parts.2
    rw [alone thread parts.1, alone target blocked]

/-- Somebody can always be chosen. -/
theorem CondVar.exists_notifyOne (waiting : CondVar Thread) :
    ∃ chosen after, waiting.notifyOne chosen = some after := by
  cases waiting with
  | nil =>
      exact ⟨none, [], rfl⟩
  | cons first rest =>
      refine ⟨some first, CondVar.leave (first :: rest) first, ?_⟩
      apply CondVar.notifyOne_eq_some.mpr
      exact Or.inr ⟨first, List.mem_cons_self, rfl, rfl⟩

end Ccmqsrv.Foundations
