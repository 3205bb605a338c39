import Ccmqsrv.RpcUtils
import Ccmqsrv.Foundations.JsonCodec

/-!
# What is kept of a document

`_parse_json_element` stores every JSON integer in an `int`.  Mapped back to
JSON, the dynamically typed value is the document with each integer reduced to
32 bits, and nothing else is changed.
-/

namespace Ccmqsrv

open Foundations

mutual

/-- The document a dynamically typed value stands for. -/
def reify : Any → Json
  | .int value => .int value.toInt
  | .double value => .float value
  | .string text => .string text
  | .bool value => .bool value
  | .null => .null
  | .vec elements => .array (reifyElements elements)
  | .map members => .object (reifyMembers members)

def reifyElements : List Any → List Json
  | [] => []
  | element :: rest => reify element :: reifyElements rest

def reifyMembers : List (Str × Any) → List (Str × Json)
  | [] => []
  | (key, value) :: rest => (key, reify value) :: reifyMembers rest

end

private theorem reifyElements_eq_map (elements : List Any) :
    reifyElements elements = elements.map reify := by
  induction elements with
  | nil => rfl
  | cons element rest inductionHypothesis =>
      rw [reifyElements, inductionHypothesis, List.map_cons]

private theorem reifyMembers_eq_map (members : List (Str × Any)) :
    reifyMembers members = members.map fun member => (member.1, reify member.2) := by
  induction members with
  | nil => rfl
  | cons member rest inductionHypothesis =>
      rw [reifyMembers, inductionHypothesis, List.map_cons]

theorem reify_vec (elements : List Any) :
    reify (.vec elements) = .array (elements.map reify) := by
  rw [reify, reifyElements_eq_map]

theorem reify_map (members : List (Str × Any)) :
    reify (.map members) = .object (members.map fun member => (member.1, reify member.2)) := by
  rw [reify, reifyMembers_eq_map]

/-- The integer in the range of `int` that is equal modulo `2 ^ 32`. -/
def narrow (value : Int) : Int :=
  value.bmod (2 ^ 32)

/-- The range of `int`. -/
def FitsInt (value : Int) : Prop :=
  -2 ^ 31 ≤ value ∧ value < 2 ^ 31

theorem narrow_fits (value : Int) : FitsInt (narrow value) := by
  have lower : -((2 ^ 32 : Nat) / 2 : Int) ≤ value.bmod (2 ^ 32) := Int.le_bmod (by decide)
  have upper : value.bmod (2 ^ 32) < ((2 ^ 32 : Nat) + 1) / 2 := Int.bmod_lt (by decide)
  unfold FitsInt narrow
  omega

theorem narrow_eq_self_iff {value : Int} : narrow value = value ↔ FitsInt value := by
  constructor
  · intro same
    exact same ▸ narrow_fits value
  · intro fits
    unfold FitsInt at fits
    apply Int.bmod_eq_of_le <;> omega

/-- Every integer is narrowed, and the rest is kept. -/
theorem reify_eq_mapInts {document : Json} (wellFormed : document.WellFormed) :
    reify (parseJsonElement document) = document.mapInts narrow := by
  unfold Json.WellFormed at wellFormed
  induction document with
  | null => rfl
  | bool value => rfl
  | int value => exact congrArg Json.int Int32.toInt_ofInt
  | float value => rfl
  | string text => rfl
  | array elements inductionHypothesis =>
      have parts := ((Json.everywhere_array elements).mp wellFormed).2
      rw [parseJsonElement, parseElements_eq_map, reify_vec, List.map_map, Json.mapInts_array]
      apply congrArg Json.array
      apply List.map_congr_left
      intro element member
      exact inductionHypothesis element member (parts element member)
  | object members inductionHypothesis =>
      obtain ⟨sorted, parts⟩ := (Json.everywhere_object members).mp wellFormed
      rw [parseJsonElement, parseMembers_of_sorted sorted, reify_map, List.map_map,
        Json.mapInts_object]
      apply congrArg Json.object
      apply List.map_congr_left
      intro entry member
      have same := inductionHypothesis entry member (parts entry member)
      exact congrArg (Prod.mk entry.1) same

/-- Exactly the documents whose integers fit an `int` are kept.  In any other
document each integer is replaced by the one in range that is equal modulo
`2 ^ 32`. -/
theorem reify_parseJsonElement {document : Json} (wellFormed : document.WellFormed) :
    (reify (parseJsonElement document) = document ↔
      document.Everywhere (Json.NodeInt FitsInt)) ∧
    reify (parseJsonElement document) = document.mapInts narrow ∧
    ∀ value, FitsInt (narrow value) ∧ (2 ^ 32 : Int) ∣ value - narrow value := by
  have reified := reify_eq_mapInts wellFormed
  refine ⟨?_, reified, fun value => ⟨narrow_fits value, ?_⟩⟩
  · rw [reified, Json.mapInts_eq_self_iff]
    simp only [narrow_eq_self_iff]
  · exact Int.dvd_self_sub_bmod

/-- `[4294967299, {"a": 5}]` -/
def wideDocument : Json :=
  .array [.int 4294967299, .object [(ascii "a", .int 5)]]

theorem reify_parseJsonElement_wide :
    (reify (parseJsonElement wideDocument) = wideDocument ↔
      wideDocument.Everywhere (Json.NodeInt FitsInt)) ∧
    reify (parseJsonElement wideDocument) = wideDocument.mapInts narrow ∧
    ∀ value, FitsInt (narrow value) ∧ (2 ^ 32 : Int) ∣ value - narrow value :=
  reify_parseJsonElement (by decide)

example : wideDocument.mapInts narrow = .array [.int 3, .object [(ascii "a", .int 5)]] := by
  rfl

end Ccmqsrv
