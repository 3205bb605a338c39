import Mathlib.Data.List.Basic

/-!
# Conveyance without loss or repetition

Entries of a log are handled in order, and some of them put a message at the
end of a queue; messages are taken from the front.  Others may use the same
queue.  What was taken, what is queued and what the rest of the log will put
there are then, in this order, what the whole log puts there.

A log may also have begun before there was a queue.  What it would have put
there until then is lost.
-/

namespace Ccmqsrv.Foundations

variable {β μ : Type}

/-- The messages of the log are lost at its beginning, taken, queued or still
to come; `keep` tells the messages of this log from those of others. -/
structure Conveys (message : β → Option μ) (keep : μ → Bool) (log : List β) (handled : Nat)
    (lost queued taken : List μ) : Prop where
  handled_le : handled ≤ log.length
  all : log.filterMap message =
    lost ++ (taken ++ queued).filter keep ++ (log.drop handled).filterMap message

namespace Conveys

variable {message : β → Option μ} {keep : μ → Bool} {log : List β} {handled : Nat}
  {lost queued taken after : List μ} {entry : β}

theorem start : Conveys message keep [] 0 [] [] [] :=
  ⟨Nat.le_refl 0, rfl⟩

/-- The log goes on. -/
theorem extend (conveys : Conveys message keep log handled lost queued taken)
    (entries : List β) : Conveys message keep (log ++ entries) handled lost queued taken := by
  refine ⟨?_, ?_⟩
  · have old := conveys.handled_le
    rw [List.length_append]
    omega
  · rw [List.filterMap_append, conveys.all, List.drop_append_of_le_length conveys.handled_le,
      List.filterMap_append]
    simp only [List.append_assoc]

private theorem rest_eq (next : log[handled]? = some entry) :
    (log.drop handled).filterMap message =
      (message entry).toList ++ (log.drop (handled + 1)).filterMap message := by
  obtain ⟨within, same⟩ := List.getElem?_eq_some_iff.mp next
  rw [List.drop_eq_getElem_cons within, same]
  cases put : message entry with
  | none => simp [put]
  | some value => simp [put]

/-- An entry is handled, and its message is put into the queue. -/
theorem handle (conveys : Conveys message keep log handled lost queued taken)
    (next : log[handled]? = some entry)
    (put : after.filter keep = queued.filter keep ++ (message entry).toList) :
    Conveys message keep log (handled + 1) lost after taken := by
  refine ⟨(List.getElem?_eq_some_iff.mp next).1, ?_⟩
  rw [conveys.all, rest_eq next, List.filter_append, List.filter_append, put]
  simp only [List.append_assoc]

/-- An entry is handled before anything came into the queue. -/
theorem lose (conveys : Conveys message keep log handled lost queued taken)
    (next : log[handled]? = some entry) (nothing : (taken ++ queued).filter keep = []) :
    Conveys message keep log (handled + 1) (lost ++ (message entry).toList) queued taken := by
  refine ⟨(List.getElem?_eq_some_iff.mp next).1, ?_⟩
  rw [conveys.all, rest_eq next, nothing]
  simp only [List.append_assoc, List.append_nil]

/-- Others use the queue. -/
theorem aside (conveys : Conveys message keep log handled lost queued taken)
    (same : after.filter keep = queued.filter keep) :
    Conveys message keep log handled lost after taken := by
  refine ⟨conveys.handled_le, ?_⟩
  rw [conveys.all, List.filter_append, List.filter_append, same]

/-- The front message is taken. -/
theorem take {front : μ} (conveys : Conveys message keep log handled lost queued taken)
    (split : queued = front :: after) :
    Conveys message keep log handled lost after (taken ++ [front]) := by
  refine ⟨conveys.handled_le, ?_⟩
  rw [conveys.all, split, List.append_assoc taken, List.singleton_append]

/-- What was taken and what is queued is in the log, in this order. -/
theorem sublist (conveys : Conveys message keep log handled lost queued taken) :
    ((taken ++ queued).filter keep).Sublist (log.filterMap message) := by
  rw [conveys.all, List.append_assoc]
  exact (List.sublist_append_left _ _).trans (List.sublist_append_right _ _)

end Conveys

section Nodup

variable {α γ κ : Type}

theorem filterMap_sublist {f g : α → Option γ}
    (refines : ∀ element value, f element = some value → g element = some value) (list : List α) :
    (list.filterMap f).Sublist (list.filterMap g) := by
  induction list with
  | nil =>
      exact List.Sublist.refl _
  | cons element rest inductionHypothesis =>
      cases kept : f element with
      | none =>
          rw [List.filterMap_cons_none kept]
          exact inductionHypothesis.trans ((List.sublist_cons_self element rest).filterMap g)
      | some value =>
          rw [List.filterMap_cons_some kept, List.filterMap_cons_some (refines element value kept)]
          exact inductionHypothesis.cons_cons value

/-- The values of each source are different, and those of different sources are
different. -/
theorem nodup_map_of_sources [DecidableEq κ] (source : μ → κ) {value : μ → γ}
    {list : List μ}
    (within : ∀ k, ((list.filter fun element => source element = k).map value).Nodup)
    (apart : ∀ element ∈ list, ∀ other ∈ list, value element = value other →
      source element = source other) : (list.map value).Nodup := by
  induction list with
  | nil =>
      exact List.nodup_nil
  | cons element rest inductionHypothesis =>
      rw [List.map_cons, List.nodup_cons]
      constructor
      · intro repeated
        obtain ⟨other, member, same⟩ := List.mem_map.mp repeated
        have sameSource := apart element List.mem_cons_self other (List.mem_cons_of_mem _ member)
          same.symm
        have first : (element :: rest).filter (fun other => source other = source element) =
            element :: rest.filter (fun other => source other = source element) :=
          List.filter_cons_of_pos (decide_eq_true rfl)
        have ownValues := within (source element)
        rw [first, List.map_cons, List.nodup_cons] at ownValues
        refine ownValues.1 (List.mem_map.mpr ⟨other, ?_, same⟩)
        exact List.mem_filter.mpr ⟨member, decide_eq_true sameSource.symm⟩
      · refine inductionHypothesis ?_ ?_
        · intro k
          refine (within k).sublist (List.Sublist.map value ?_)
          exact List.Sublist.filter _ (List.sublist_cons_self element rest)
        · intro first firstMember second secondMember
          exact apart first (List.mem_cons_of_mem _ firstMember) second
            (List.mem_cons_of_mem _ secondMember)

end Nodup

end Ccmqsrv.Foundations
