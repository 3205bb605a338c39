import Ccmqsrv.Foundations.Bytes
import Ccmqsrv.Foundations.OrderedMap

/-!
# JSON documents and their text

Documents are trees over the JSON leaves.  Integers and floats are separate
leaves, objects are lists of members in key order, and floats are IEEE 754
binary64 bit patterns.

A `JsonText` is a printer together with a reader.  `JsonText.Lawful` is what a
user of the pair may rely on: reading undoes printing on every well-formed
document (a float without a JSON form is printed as `null`), printing fails
exactly on invalid UTF-8, and reading only produces well-formed documents.
-/

namespace Ccmqsrv.Foundations

/-- A binary64 floating-point number. -/
structure Double where
  bits : UInt64
  deriving DecidableEq, Repr

namespace Double

/-- Positive zero, the value of a default-initialised number. -/
def zero : Double := ⟨0⟩

/-- Sign bit. -/
def negative (value : Double) : Bool :=
  2 ^ 63 ≤ value.bits.toNat

/-- The pattern without its sign bit. -/
def unsignedBits (value : Double) : Nat :=
  value.bits.toNat % 2 ^ 63

/-- Neither infinite nor a NaN. -/
def isFinite (value : Double) : Bool :=
  value.unsignedBits < 2047 * 2 ^ 52

/-- The absolute value of a finite number in units of `2 ^ (-1074)`, the
smallest positive subnormal. -/
def magnitude (value : Double) : Nat :=
  if value.unsignedBits < 2 ^ 52 then
    value.unsignedBits
  else
    (2 ^ 52 + value.unsignedBits % 2 ^ 52) * 2 ^ (value.unsignedBits / 2 ^ 52 - 1)

/-- Rounding toward zero. -/
def truncate (value : Double) : Int :=
  if value.negative then
    -(value.magnitude / 2 ^ 1074 : Nat)
  else
    (value.magnitude / 2 ^ 1074 : Nat)

end Double

/-- A JSON document. -/
inductive Json where
  | null
  | bool (value : Bool)
  | int (value : Int)
  | float (value : Double)
  | string (text : Bytes)
  | array (elements : List Json)
  | object (members : List (Bytes × Json))

namespace Json

/-- Induction on documents, with one hypothesis for all direct parts. -/
@[elab_as_elim, induction_eliminator]
theorem inductionOn {motive : Json → Prop}
    (null : motive .null)
    (bool : ∀ value, motive (.bool value))
    (int : ∀ value, motive (.int value))
    (float : ∀ value, motive (.float value))
    (string : ∀ text, motive (.string text))
    (array : ∀ elements,
      (∀ element ∈ elements, motive element) → motive (.array elements))
    (object : ∀ members,
      (∀ member ∈ members, motive member.2) → motive (.object members))
    (document : Json) : motive document :=
  @Json.rec motive
    (fun elements => ∀ element ∈ elements, motive element)
    (fun members => ∀ member ∈ members, motive member.2)
    (fun member => motive member.2)
    null bool int float string array object
    (fun _ member => absurd member List.not_mem_nil)
    (fun _ _ head tail => List.forall_mem_cons.mpr ⟨head, tail⟩)
    (fun _ member => absurd member List.not_mem_nil)
    (fun _ _ head tail => List.forall_mem_cons.mpr ⟨head, tail⟩)
    (fun _ _ value => value)
    document

mutual

/-- A condition that holds of the document and of every part of it. -/
def Everywhere (condition : Json → Prop) : Json → Prop
  | .array elements =>
      condition (.array elements) ∧ EverywhereIn condition elements
  | .object members =>
      condition (.object members) ∧ EverywhereUnder condition members
  | .null => condition .null
  | .bool value => condition (.bool value)
  | .int value => condition (.int value)
  | .float value => condition (.float value)
  | .string text => condition (.string text)

def EverywhereIn (condition : Json → Prop) : List Json → Prop
  | [] => True
  | element :: rest =>
      Everywhere condition element ∧ EverywhereIn condition rest

def EverywhereUnder (condition : Json → Prop) : List (Bytes × Json) → Prop
  | [] => True
  | (_, value) :: rest =>
      Everywhere condition value ∧ EverywhereUnder condition rest

end

section Everywhere

variable {condition : Json → Prop}

private theorem everywhereIn_iff (elements : List Json) :
    EverywhereIn condition elements ↔
      ∀ element ∈ elements, Everywhere condition element := by
  induction elements with
  | nil =>
      simp [EverywhereIn]
  | cons element rest inductionHypothesis =>
      rw [EverywhereIn, inductionHypothesis, List.forall_mem_cons]

private theorem everywhereUnder_iff (members : List (Bytes × Json)) :
    EverywhereUnder condition members ↔
      ∀ member ∈ members, Everywhere condition member.2 := by
  induction members with
  | nil =>
      simp [EverywhereUnder]
  | cons member rest inductionHypothesis =>
      rw [EverywhereUnder, inductionHypothesis, List.forall_mem_cons]

@[simp]
theorem everywhere_array (elements : List Json) :
    Everywhere condition (.array elements) ↔
      condition (.array elements) ∧
        ∀ element ∈ elements, Everywhere condition element := by
  rw [Everywhere, everywhereIn_iff]

@[simp]
theorem everywhere_object (members : List (Bytes × Json)) :
    Everywhere condition (.object members) ↔
      condition (.object members) ∧
        ∀ member ∈ members, Everywhere condition member.2 := by
  rw [Everywhere, everywhereUnder_iff]

@[simp]
theorem everywhere_null : Everywhere condition .null ↔ condition .null :=
  Iff.rfl

@[simp]
theorem everywhere_bool (value : Bool) :
    Everywhere condition (.bool value) ↔ condition (.bool value) :=
  Iff.rfl

@[simp]
theorem everywhere_int (value : Int) :
    Everywhere condition (.int value) ↔ condition (.int value) :=
  Iff.rfl

@[simp]
theorem everywhere_float (value : Double) :
    Everywhere condition (.float value) ↔ condition (.float value) :=
  Iff.rfl

@[simp]
theorem everywhere_string (text : Bytes) :
    Everywhere condition (.string text) ↔ condition (.string text) :=
  Iff.rfl

end Everywhere

/-- Integers fit 64 bits and members are in key order. -/
@[simp]
def NodeWellFormed : Json → Prop
  | .int value => -2 ^ 63 ≤ value ∧ value < 2 ^ 64
  | .object members => KeySorted members
  | _ => True

/-- Strings and member names are valid UTF-8. -/
@[simp]
def NodeValidUtf8 : Json → Prop
  | .string text => validUtf8 text = true
  | .object members => ∀ member ∈ members, validUtf8 member.1 = true
  | _ => True

/-- Floats are finite. -/
@[simp]
def NodeFinite : Json → Prop
  | .float value => value.isFinite = true
  | _ => True

instance : DecidablePred NodeWellFormed
  | .int value => inferInstanceAs (Decidable (-2 ^ 63 ≤ value ∧ value < 2 ^ 64))
  | .object members => inferInstanceAs (Decidable (KeySorted members))
  | .null | .bool _ | .float _ | .string _ | .array _ => inferInstanceAs (Decidable True)

instance : DecidablePred NodeValidUtf8
  | .string text => inferInstanceAs (Decidable (validUtf8 text = true))
  | .object members =>
      inferInstanceAs (Decidable (∀ member ∈ members, validUtf8 member.1 = true))
  | .null | .bool _ | .int _ | .float _ | .array _ => inferInstanceAs (Decidable True)

instance : DecidablePred NodeFinite
  | .float value => inferInstanceAs (Decidable (value.isFinite = true))
  | .null | .bool _ | .int _ | .string _ | .array _ | .object _ =>
      inferInstanceAs (Decidable True)

mutual

def decideEverywhere (condition : Json → Prop) [DecidablePred condition] :
    ∀ document, Decidable (Everywhere condition document)
  | .array elements =>
      haveI := decideEverywhereIn condition elements
      inferInstanceAs
        (Decidable (condition (.array elements) ∧ EverywhereIn condition elements))
  | .object members =>
      haveI := decideEverywhereUnder condition members
      inferInstanceAs
        (Decidable (condition (.object members) ∧ EverywhereUnder condition members))
  | .null => inferInstanceAs (Decidable (condition .null))
  | .bool value => inferInstanceAs (Decidable (condition (.bool value)))
  | .int value => inferInstanceAs (Decidable (condition (.int value)))
  | .float value => inferInstanceAs (Decidable (condition (.float value)))
  | .string text => inferInstanceAs (Decidable (condition (.string text)))

def decideEverywhereIn (condition : Json → Prop) [DecidablePred condition] :
    ∀ elements, Decidable (EverywhereIn condition elements)
  | [] => inferInstanceAs (Decidable True)
  | element :: rest =>
      haveI := decideEverywhere condition element
      haveI := decideEverywhereIn condition rest
      inferInstanceAs
        (Decidable (Everywhere condition element ∧ EverywhereIn condition rest))

def decideEverywhereUnder (condition : Json → Prop) [DecidablePred condition] :
    ∀ members, Decidable (EverywhereUnder condition members)
  | [] => inferInstanceAs (Decidable True)
  | (_, value) :: rest =>
      haveI := decideEverywhere condition value
      haveI := decideEverywhereUnder condition rest
      inferInstanceAs
        (Decidable (Everywhere condition value ∧ EverywhereUnder condition rest))

end

/-- A document as the library can hold it. -/
def WellFormed : Json → Prop := Everywhere NodeWellFormed

/-- All text in the document is valid UTF-8. -/
def ValidUtf8 : Json → Prop := Everywhere NodeValidUtf8

/-- All floats in the document are finite. -/
def Finite : Json → Prop := Everywhere NodeFinite

instance : DecidablePred WellFormed := decideEverywhere NodeWellFormed

instance : DecidablePred ValidUtf8 := decideEverywhere NodeValidUtf8

instance : DecidablePred Finite := decideEverywhere NodeFinite

mutual

/-- The document with every float that has no JSON form replaced by `null`. -/
def scrub : Json → Json
  | .float value => if value.isFinite then .float value else .null
  | .array elements => .array (scrubIn elements)
  | .object members => .object (scrubUnder members)
  | .null => .null
  | .bool value => .bool value
  | .int value => .int value
  | .string text => .string text

def scrubIn : List Json → List Json
  | [] => []
  | element :: rest => scrub element :: scrubIn rest

def scrubUnder : List (Bytes × Json) → List (Bytes × Json)
  | [] => []
  | (name, value) :: rest => (name, scrub value) :: scrubUnder rest

end

private theorem scrubIn_eq_map (elements : List Json) :
    scrubIn elements = elements.map scrub := by
  induction elements with
  | nil => rfl
  | cons element rest inductionHypothesis =>
      rw [scrubIn, inductionHypothesis, List.map_cons]

private theorem scrubUnder_eq_map (members : List (Bytes × Json)) :
    scrubUnder members = members.map fun member => (member.1, scrub member.2) := by
  induction members with
  | nil => rfl
  | cons member rest inductionHypothesis =>
      rw [scrubUnder, inductionHypothesis, List.map_cons]

@[simp]
theorem scrub_array (elements : List Json) :
    scrub (.array elements) = .array (elements.map scrub) := by
  rw [scrub, scrubIn_eq_map]

@[simp]
theorem scrub_object (members : List (Bytes × Json)) :
    scrub (.object members) =
      .object (members.map fun member => (member.1, scrub member.2)) := by
  rw [scrub, scrubUnder_eq_map]

@[simp]
theorem scrub_null : scrub .null = .null := rfl

@[simp]
theorem scrub_bool (value : Bool) : scrub (.bool value) = .bool value := rfl

@[simp]
theorem scrub_int (value : Int) : scrub (.int value) = .int value := rfl

@[simp]
theorem scrub_string (text : Bytes) : scrub (.string text) = .string text := rfl

theorem scrub_float (value : Double) :
    scrub (.float value) = if value.isFinite then .float value else .null := by
  rw [scrub]

/-- A document with finite floats is printed as it is. -/
theorem Finite.scrub_eq {document : Json} (finite : document.Finite) :
    document.scrub = document := by
  unfold Finite at finite
  induction document with
  | null => rfl
  | bool value => rfl
  | int value => rfl
  | string text => rfl
  | float value =>
      have isFinite : value.isFinite = true := finite
      rw [scrub_float, if_pos isFinite]
  | array elements inductionHypothesis =>
      have parts := ((everywhere_array elements).mp finite).2
      rw [scrub_array, List.map_congr_left fun element member =>
        inductionHypothesis element member (parts element member)]
      simp
  | object members inductionHypothesis =>
      have parts := ((everywhere_object members).mp finite).2
      rw [scrub_object, List.map_congr_left fun member inMembers => by
        rw [inductionHypothesis member inMembers (parts member inMembers)]]
      simp

mutual

/-- The document with every integer changed. -/
def mapInts (change : Int → Int) : Json → Json
  | .int value => .int (change value)
  | .array elements => .array (mapIntsIn change elements)
  | .object members => .object (mapIntsUnder change members)
  | .null => .null
  | .bool value => .bool value
  | .float value => .float value
  | .string text => .string text

def mapIntsIn (change : Int → Int) : List Json → List Json
  | [] => []
  | element :: rest => mapInts change element :: mapIntsIn change rest

def mapIntsUnder (change : Int → Int) : List (Bytes × Json) → List (Bytes × Json)
  | [] => []
  | (name, value) :: rest => (name, mapInts change value) :: mapIntsUnder change rest

end

section MapInts

variable {change : Int → Int}

private theorem mapIntsIn_eq_map (elements : List Json) :
    mapIntsIn change elements = elements.map (mapInts change) := by
  induction elements with
  | nil => rfl
  | cons element rest inductionHypothesis =>
      rw [mapIntsIn, inductionHypothesis, List.map_cons]

private theorem mapIntsUnder_eq_map (members : List (Bytes × Json)) :
    mapIntsUnder change members =
      members.map fun member => (member.1, mapInts change member.2) := by
  induction members with
  | nil => rfl
  | cons member rest inductionHypothesis =>
      rw [mapIntsUnder, inductionHypothesis, List.map_cons]

@[simp]
theorem mapInts_array (elements : List Json) :
    mapInts change (.array elements) = .array (elements.map (mapInts change)) := by
  rw [mapInts, mapIntsIn_eq_map]

@[simp]
theorem mapInts_object (members : List (Bytes × Json)) :
    mapInts change (.object members) =
      .object (members.map fun member => (member.1, mapInts change member.2)) := by
  rw [mapInts, mapIntsUnder_eq_map]

/-- A condition on the integers of a document. -/
def NodeInt (condition : Int → Prop) : Json → Prop
  | .int value => condition value
  | _ => True

private theorem map_eq_self_iff {α : Type} {change : α → α} {values : List α} :
    values.map change = values ↔ ∀ value ∈ values, change value = value := by
  have same : values.map id = values := List.map_id values
  constructor
  · intro unchanged
    exact List.map_eq_map_iff.mp (unchanged.trans same.symm)
  · intro unchanged
    exact (List.map_eq_map_iff.mpr unchanged).trans same

/-- Nothing is changed exactly when no integer is. -/
theorem mapInts_eq_self_iff {document : Json} :
    document.mapInts change = document ↔
      document.Everywhere (NodeInt fun value => change value = value) := by
  induction document with
  | null => simp [mapInts, NodeInt]
  | bool value => simp [mapInts, NodeInt]
  | int value => simp [mapInts, NodeInt]
  | float value => simp [mapInts, NodeInt]
  | string text => simp [mapInts, NodeInt]
  | array elements inductionHypothesis =>
      rw [mapInts_array, everywhere_array, Json.array.injEq, map_eq_self_iff]
      constructor
      · intro unchanged
        exact ⟨trivial, fun element member =>
          (inductionHypothesis element member).mp (unchanged element member)⟩
      · rintro ⟨_, parts⟩ element member
        exact (inductionHypothesis element member).mpr (parts element member)
  | object members inductionHypothesis =>
      rw [mapInts_object, everywhere_object, Json.object.injEq, map_eq_self_iff]
      constructor
      · intro unchanged
        refine ⟨trivial, fun entry member => (inductionHypothesis entry member).mp ?_⟩
        exact congrArg Prod.snd (unchanged entry member)
      · rintro ⟨_, parts⟩ entry member
        have same := (inductionHypothesis entry member).mpr (parts entry member)
        rw [same]

end MapInts

@[simp]
theorem wellFormed_array (elements : List Json) :
    WellFormed (.array elements) ↔ ∀ element ∈ elements, element.WellFormed := by
  unfold WellFormed
  simp

@[simp]
theorem validUtf8_array (elements : List Json) :
    ValidUtf8 (.array elements) ↔ ∀ element ∈ elements, element.ValidUtf8 := by
  unfold ValidUtf8
  simp

@[simp]
theorem finite_array (elements : List Json) :
    Finite (.array elements) ↔ ∀ element ∈ elements, element.Finite := by
  unfold Finite
  simp

@[simp]
theorem wellFormed_string (text : Bytes) : WellFormed (.string text) :=
  trivial

@[simp]
theorem validUtf8_string (text : Bytes) :
    ValidUtf8 (.string text) ↔ Foundations.validUtf8 text = true :=
  Iff.rfl

@[simp]
theorem finite_string (text : Bytes) : Finite (.string text) :=
  trivial

@[simp]
theorem wellFormed_int (value : Int) :
    WellFormed (.int value) ↔ -2 ^ 63 ≤ value ∧ value < 2 ^ 64 :=
  Iff.rfl

@[simp]
theorem validUtf8_int (value : Int) : ValidUtf8 (.int value) :=
  trivial

@[simp]
theorem finite_int (value : Int) : Finite (.int value) :=
  trivial

@[simp]
theorem wellFormed_null : WellFormed .null :=
  trivial

@[simp]
theorem validUtf8_null : ValidUtf8 .null :=
  trivial

@[simp]
theorem finite_null : Finite .null :=
  trivial

end Json

/-- A printer and a reader for JSON documents.  Each may refuse its input. -/
structure JsonText where
  dump : Json → Option Bytes
  parse : Bytes → Option Json

/-- What a user of a printer and its reader relies on. -/
structure JsonText.Lawful (text : JsonText) : Prop where
  /-- Printed text is read back. -/
  parse_dump : ∀ document : Json, document.WellFormed → document.ValidUtf8 →
    ∃ bytes, text.dump document = some bytes ∧
      text.parse bytes = some document.scrub
  /-- The printer refuses text that is not UTF-8. -/
  dump_invalid : ∀ document : Json, ¬ document.ValidUtf8 → text.dump document = none
  /-- Control characters are escaped, so the text holds no zero octet. -/
  dump_noZero : ∀ (document : Json) (bytes : Bytes),
    text.dump document = some bytes → (0 : UInt8) ∉ bytes
  /-- What is read is a well-formed document. -/
  parse_sound : ∀ (bytes : Bytes) (document : Json),
    text.parse bytes = some document →
      document.WellFormed ∧ document.ValidUtf8 ∧ document.Finite
  /-- The empty text is no document. -/
  parse_nil : text.parse [] = none

namespace JsonText.Lawful

variable {text : JsonText} (lawful : text.Lawful)

include lawful

theorem validUtf8_of_dump {document : Json} {bytes : Bytes}
    (dumped : text.dump document = some bytes) : document.ValidUtf8 := by
  by_contra invalid
  rw [lawful.dump_invalid document invalid] at dumped
  cases dumped

/-- Reading undoes printing whenever the printer succeeds. -/
theorem parse_of_dump {document : Json} {bytes : Bytes}
    (wellFormed : document.WellFormed) (dumped : text.dump document = some bytes) :
    text.parse bytes = some document.scrub := by
  obtain ⟨printed, dumpEq, parseEq⟩ :=
    lawful.parse_dump document wellFormed (lawful.validUtf8_of_dump dumped)
  rw [dumped] at dumpEq
  cases dumpEq
  exact parseEq

/-- The printer succeeds exactly on valid UTF-8. -/
theorem exists_dump_iff {document : Json} (wellFormed : document.WellFormed) :
    (∃ bytes, text.dump document = some bytes) ↔ document.ValidUtf8 := by
  constructor
  · rintro ⟨bytes, dumped⟩
    exact lawful.validUtf8_of_dump dumped
  · intro valid
    obtain ⟨bytes, dumped, _⟩ := lawful.parse_dump document wellFormed valid
    exact ⟨bytes, dumped⟩

end JsonText.Lawful

end Ccmqsrv.Foundations
