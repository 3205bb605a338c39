import Mathlib.Data.List.Infix

/-!
# Topic patterns

A key is a text of words with dots between them; the empty key has no words.
In a pattern the word `star` stands for one word of a key and the word `hash`
for any number of them.  Any other word stands for itself.

A pattern matches itself, whatever words it has.  A pattern without `star` and
`hash` matches nothing else.
-/

namespace Ccmqsrv.Foundations

variable {α : Type} [DecidableEq α]

/-- What keys and patterns are written with. -/
structure TopicSyntax (α : Type) where
  dot : α
  star : List α
  hash : List α

namespace TopicSyntax

variable (topics : TopicSyntax α)

def words (key : List α) : List (List α) :=
  if key.isEmpty then [] else key.splitOn topics.dot

def wordsMatch : List (List α) → List (List α) → Bool
  | [], words => words.isEmpty
  | first :: pattern, words =>
      if first = topics.hash then
        words.tails.any (wordsMatch pattern)
      else
        words.head?.any (fun word => first = topics.star || first = word) &&
          wordsMatch pattern words.tail

/-- The pattern matches the key. -/
def accepts (pattern key : List α) : Bool :=
  topics.wordsMatch (topics.words pattern) (topics.words key)

/-- Every word of the key stands for itself. -/
def Plain (key : List α) : Prop :=
  ∀ word ∈ topics.words key, word ≠ topics.star ∧ word ≠ topics.hash

theorem wordsMatch_self (words : List (List α)) : topics.wordsMatch words words = true := by
  induction words with
  | nil =>
      rfl
  | cons first rest inductionHypothesis =>
      rw [wordsMatch]
      by_cases isHash : first = topics.hash
      · rw [if_pos isHash, List.any_eq_true]
        exact ⟨rest, (List.mem_tails _ _).mpr (List.suffix_cons first rest), inductionHypothesis⟩
      · rw [if_neg isHash]
        simp [inductionHypothesis]

/-- As a pattern, a key matches itself. -/
theorem accepts_self (key : List α) : topics.accepts key key = true :=
  topics.wordsMatch_self (topics.words key)

theorem eq_of_wordsMatch {pattern words : List (List α)}
    (plain : ∀ word ∈ pattern, word ≠ topics.star ∧ word ≠ topics.hash)
    (matched : topics.wordsMatch pattern words = true) : pattern = words := by
  induction pattern generalizing words with
  | nil =>
      rw [wordsMatch, List.isEmpty_iff] at matched
      exact matched.symm
  | cons first pattern inductionHypothesis =>
      obtain ⟨⟨notStar, notHash⟩, plainRest⟩ := List.forall_mem_cons.mp plain
      rw [wordsMatch, if_neg notHash] at matched
      cases words with
      | nil => cases matched
      | cons word rest =>
          obtain ⟨sameFirst, matchedRest⟩ := Bool.and_eq_true_iff.mp matched
          have same : first = word := by
            simpa [notStar] using sameFirst
          rw [List.tail_cons] at matchedRest
          rw [same, inductionHypothesis plainRest matchedRest]

/-- A key is made of its words. -/
theorem words_injective {left right : List α} (same : topics.words left = topics.words right) :
    left = right := by
  unfold words at same
  cases left with
  | nil =>
      cases right with
      | nil => rfl
      | cons first rest => exact absurd same.symm (List.splitOn_ne_nil _ _)
  | cons first rest =>
      cases right with
      | nil => exact absurd same (List.splitOn_ne_nil _ _)
      | cons other others =>
          have split : (first :: rest).splitOn topics.dot = (other :: others).splitOn topics.dot :=
            same
          calc
            first :: rest = [topics.dot].intercalate ((first :: rest).splitOn topics.dot) :=
              (List.intercalate_splitOn _).symm
            _ = [topics.dot].intercalate ((other :: others).splitOn topics.dot) := by rw [split]
            _ = other :: others := List.intercalate_splitOn _

/-- A key without dots is one word. -/
theorem Plain.of_noDot {topics : TopicSyntax α} {key : List α} (noDot : topics.dot ∉ key)
    (notStar : key ≠ topics.star) (notHash : key ≠ topics.hash) : topics.Plain key := by
  intro word member
  unfold words at member
  split at member
  · cases member
  · rw [List.splitOn_eq_singleton noDot] at member
    rw [List.mem_singleton.mp member]
    exact ⟨notStar, notHash⟩

/-- A plain pattern matches itself only. -/
theorem Plain.eq_of_accepts {topics : TopicSyntax α} {pattern key : List α}
    (plain : topics.Plain pattern) (accepted : topics.accepts pattern key = true) :
    pattern = key :=
  topics.words_injective (topics.eq_of_wordsMatch plain accepted)

end TopicSyntax

end Ccmqsrv.Foundations
