import Mathlib.Data.List.Basic

/-!
# Append-only logs

What is said about an entry of a log may refer to the entries before it.  Such
a statement about a log that grows is kept by a comparison of the new entry
with the log it was appended to.
-/

namespace Ccmqsrv.Foundations

variable {α : Type}

/-- A list that was extended splits at an element of the old part or of the
new part. -/
theorem split_append {old new before later : List α} {element : α}
    (split : old ++ new = before ++ element :: later) :
    (∃ rest, old = before ++ element :: rest ∧ later = rest ++ new) ∨
      ∃ rest, before = old ++ rest ∧ new = rest ++ element :: later := by
  rcases List.append_eq_append_iff.mp split with inNew | ⟨rest, oldEq, laterEq⟩
  · exact Or.inr inNew
  · cases rest with
    | nil =>
        right
        refine ⟨[], ?_, laterEq.symm⟩
        rw [oldEq, List.append_nil, List.append_nil]
    | cons first rest =>
        injection laterEq with sameElement rest_eq
        subst sameElement
        exact Or.inl ⟨rest, oldEq, rest_eq⟩

/-- The same for a list extended by one element. -/
theorem split_append_singleton {old before later : List α} {last element : α}
    (split : old ++ [last] = before ++ element :: later) :
    (∃ rest, old = before ++ element :: rest ∧ later = rest ++ [last]) ∨
      (before = old ∧ element = last) := by
  rcases split_append split with inOld | ⟨rest, beforeEq, new⟩
  · exact Or.inl inOld
  · right
    cases rest with
    | nil =>
        injection new with same
        exact ⟨beforeEq.trans (List.append_nil old), same.symm⟩
    | cons first rest =>
        injection new with _ impossible
        exact absurd impossible.symm (List.append_ne_nil_of_right_ne_nil _ (List.cons_ne_nil _ _))

/-- The first entry stands before the second. -/
def Before (log : List α) (first second : α) : Prop :=
  ∃ initial between rest, log = initial ++ first :: (between ++ second :: rest)

theorem Before.of_mem {initial rest : List α} {first second : α} (member : first ∈ initial) :
    Before (initial ++ second :: rest) first second := by
  obtain ⟨start, between, rfl⟩ := List.append_of_mem member
  exact ⟨start, between, rest, by rw [List.append_assoc, List.cons_append]⟩

/-- Leaving out entries keeps the order of those that stay. -/
theorem Before.filterMap {β : Type} {keep : α → Option β} {log : List α} {first second : α}
    {isFirst isSecond : β} (before : Before log first second) (keepsFirst : keep first = some isFirst)
    (keepsSecond : keep second = some isSecond) :
    Before (log.filterMap keep) isFirst isSecond := by
  obtain ⟨initial, between, rest, rfl⟩ := before
  refine ⟨initial.filterMap keep, between.filterMap keep, rest.filterMap keep, ?_⟩
  rw [List.filterMap_append, List.filterMap_cons_some keepsFirst, List.filterMap_append,
    List.filterMap_cons_some keepsSecond]

/-- Every entry has what it requires of the entries before it. -/
def Preceded (requires : List α → α → Prop) (log : List α) : Prop :=
  ∀ before entry later, log = before ++ entry :: later → requires before entry

variable {requires : List α → α → Prop} {log : List α}

theorem Preceded.nil : Preceded requires [] := by
  intro before entry later split
  exact absurd split.symm (List.append_ne_nil_of_right_ne_nil _ (List.cons_ne_nil _ _))

theorem Preceded.of_getElem? (preceded : Preceded requires log) {index : Nat} {entry : α}
    (found : log[index]? = some entry) : requires (log.take index) entry := by
  obtain ⟨within, same⟩ := List.getElem?_eq_some_iff.mp found
  refine preceded _ entry (log.drop (index + 1)) ?_
  rw [← same, ← List.drop_eq_getElem_cons within, List.take_append_drop]

theorem Preceded.append_singleton (preceded : Preceded requires log) {last : α}
    (met : requires log last) : Preceded requires (log ++ [last]) := by
  intro before entry later split
  rcases split_append_singleton split with ⟨rest, inLog, _⟩ | ⟨rfl, rfl⟩
  · exact preceded before entry rest inLog
  · exact met

end Ccmqsrv.Foundations
