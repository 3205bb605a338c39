import Mathlib.Data.List.Basic

/-!
# Tokens between delimiters

The tokens of a text are the pieces between its delimiters that are not empty.
What the first token is can be read off a decomposition of the text: delimiters,
then the token, then the end of the text or another delimiter.
-/

namespace Ccmqsrv.Foundations

variable {α : Type} {delimiter : α} {text token rest : List α}

/-- The text ends, or a delimiter is next. -/
def Stops (delimiter : α) (rest : List α) : Prop :=
  rest = [] ∨ ∃ later, rest = delimiter :: later

/-- Delimiters, a token and the rest of the text. -/
structure FirstToken (delimiter : α) (text token rest : List α) : Prop where
  split : ∃ lead, (∀ octet ∈ lead, octet = delimiter) ∧ text = lead ++ token ++ rest
  free : delimiter ∉ token
  nonempty : token ≠ []
  stops : Stops delimiter rest

theorem FirstToken.of_append (free : delimiter ∉ token) (nonempty : token ≠ [])
    (stops : Stops delimiter rest) : FirstToken delimiter (token ++ rest) token rest :=
  ⟨⟨[], nofun, rfl⟩, free, nonempty, stops⟩

theorem FirstToken.cons_self (first : FirstToken delimiter text token rest) :
    FirstToken delimiter (delimiter :: text) token rest := by
  obtain ⟨lead, all, split⟩ := first.split
  refine ⟨⟨delimiter :: lead, ?_, congrArg (delimiter :: ·) split⟩, first.free,
    first.nonempty, first.stops⟩
  intro octet member
  rcases List.mem_cons.mp member with same | later
  · exact same
  · exact all octet later

/-- A front part of such a text is one as well. -/
theorem Stops.of_append {front : List α} (stops : Stops delimiter (front ++ rest)) :
    Stops delimiter front := by
  cases front with
  | nil => exact Or.inl rfl
  | cons octet later =>
      rcases stops with ended | ⟨others, split⟩
      · cases ended
      · injection split with sameOctet
        exact Or.inr ⟨later, by rw [sameOctet]⟩

variable [DecidableEq α]

/-- The text up to its first delimiter. -/
theorem exists_stops (delimiter : α) (text : List α) :
    ∃ front rest, text = front ++ rest ∧ delimiter ∉ front ∧ Stops delimiter rest := by
  induction text with
  | nil => exact ⟨[], [], rfl, List.not_mem_nil, Or.inl rfl⟩
  | cons first text inductionHypothesis =>
      by_cases same : delimiter = first
      · exact ⟨[], first :: text, rfl, List.not_mem_nil, Or.inr ⟨text, same ▸ rfl⟩⟩
      · obtain ⟨front, rest, split, free, stops⟩ := inductionHypothesis
        refine ⟨first :: front, rest, congrArg (first :: ·) split, ?_, stops⟩
        exact List.not_mem_cons_of_ne_of_not_mem same free

theorem Stops.takeWhile {front : List α} (stops : Stops delimiter rest)
    (free : delimiter ∉ front) : (front ++ rest).takeWhile (· ≠ delimiter) = front := by
  rw [List.takeWhile_append_of_pos]
  · rcases stops with rfl | ⟨later, rfl⟩
    · exact List.append_nil front
    · simp
  · intro octet member
    simpa using fun same : octet = delimiter => free (same ▸ member)

theorem Stops.dropWhile {front : List α} (stops : Stops delimiter rest)
    (free : delimiter ∉ front) : (front ++ rest).dropWhile (· ≠ delimiter) = rest := by
  rw [List.dropWhile_append_of_pos]
  · rcases stops with rfl | ⟨later, rfl⟩
    · rfl
    · simp
  · intro octet member
    simpa using fun same : octet = delimiter => free (same ▸ member)

/-- The pieces of the text between delimiters, without the empty ones. -/
def tokens (delimiter : α) (text : List α) : List (List α) :=
  (text.splitOn delimiter).filter fun piece => !piece.isEmpty

@[simp]
theorem tokens_nil : tokens delimiter [] = [] := by
  rw [tokens, List.splitOn_nil]
  rfl

@[simp]
theorem tokens_cons_self : tokens delimiter (delimiter :: rest) = tokens delimiter rest := by
  have noToken : delimiter ∉ ([] : List α) := List.not_mem_nil
  have split := List.splitOn_append_cons_self_of_not_mem noToken rest
  rw [List.nil_append] at split
  rw [tokens, split]
  rfl

theorem tokens_append (free : delimiter ∉ token) (nonempty : token ≠ [])
    (stops : Stops delimiter rest) :
    tokens delimiter (token ++ rest) = token :: tokens delimiter rest := by
  rcases stops with rfl | ⟨later, rfl⟩
  · rw [List.append_nil, tokens_nil, tokens, List.splitOn_eq_singleton free]
    simpa using nonempty
  · rw [tokens_cons_self, tokens, List.splitOn_append_cons_self_of_not_mem free]
    simp [nonempty, tokens]

theorem FirstToken.tokens_eq (first : FirstToken delimiter text token rest) :
    tokens delimiter text = token :: tokens delimiter rest := by
  obtain ⟨lead, all, split⟩ := first.split
  rw [split, List.append_assoc]
  clear split
  induction lead with
  | nil => exact tokens_append first.free first.nonempty first.stops
  | cons octet lead inductionHypothesis =>
      rw [all octet List.mem_cons_self, List.cons_append, tokens_cons_self]
      exact inductionHypothesis fun later member => all later (List.mem_cons_of_mem _ member)

/-- The first token is where a decomposition says it is. -/
theorem exists_firstToken {later : List (List α)}
    (found : tokens delimiter text = token :: later) :
    ∃ rest, FirstToken delimiter text token rest ∧ later = tokens delimiter rest := by
  induction text with
  | nil =>
      rw [tokens_nil] at found
      cases found
  | cons octet text inductionHypothesis =>
      by_cases same : octet = delimiter
      · subst same
        rw [tokens_cons_self] at found
        obtain ⟨rest, first, same⟩ := inductionHypothesis found
        exact ⟨rest, first.cons_self, same⟩
      · obtain ⟨front, rest, split, free, stops⟩ := exists_stops delimiter (octet :: text)
        have nonempty : front ≠ [] := by
          rintro rfl
          rcases stops with rfl | ⟨remaining, rfl⟩
          · cases split
          · injection split with sameOctet
            exact same sameOctet
        rw [split, tokens_append free nonempty stops] at found
        injection found with sameToken sameLater
        subst sameToken
        rw [split]
        exact ⟨rest, FirstToken.of_append free nonempty stops, sameLater.symm⟩

theorem tokens_zero {found : List α} :
    (tokens delimiter text)[0]? = some found ↔ ∃ rest, FirstToken delimiter text found rest := by
  constructor
  · intro inPlace
    obtain ⟨later, split⟩ : ∃ later, tokens delimiter text = found :: later := by
      cases all : tokens delimiter text with
      | nil =>
          rw [all] at inPlace
          cases inPlace
      | cons head later =>
          rw [all] at inPlace
          cases inPlace
          exact ⟨later, rfl⟩
    obtain ⟨rest, first, _⟩ := exists_firstToken split
    exact ⟨rest, first⟩
  · intro first
    obtain ⟨rest, first⟩ := first
    rw [first.tokens_eq]
    rfl

/-- The second token is the first one after the first token. -/
theorem FirstToken.tokens_one (first : FirstToken delimiter text token rest) :
    (tokens delimiter text)[1]? = (tokens delimiter rest)[0]? := by
  rw [first.tokens_eq]
  rfl

end Ccmqsrv.Foundations
