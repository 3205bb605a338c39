import Ccmqsrv.Foundations.JsonNumber
import Ccmqsrv.Foundations.JsonString

/-!
# A printer and reader for JSON documents

`codec` prints documents without white space and reads the whole JSON
grammar.  The reader descends recursively with a bound on its steps; the
length of the text is enough.  After the first element of an array or object,
the remaining ones are read as a tail that starts with a comma or with the
closing bracket, which is how they are printed too.

`codec_lawful` is the round trip, together with the other laws of a
`JsonText`.
-/

namespace Ccmqsrv.Foundations

def isSpace (octet : UInt8) : Bool :=
  octet == 0x20 || octet == 0x09 || octet == 0x0A || octet == 0x0D

def skipSpace (text : Bytes) : Bytes :=
  text.dropWhile isSpace

/-! ## Printing -/

mutual

def printValue : Json → Bytes
  | .null => ascii "null"
  | .bool value => if value then ascii "true" else ascii "false"
  | .int value => printInt value
  | .float value => if value.isFinite then printDouble value else ascii "null"
  | .string text => printString text
  | .array [] => ascii "[]"
  | .array (element :: rest) => 0x5B :: (printValue element ++ printElements rest)
  | .object [] => ascii "\x7b\x7d"
  | .object ((name, value) :: rest) =>
      0x7B :: (printString name ++ 0x3A :: (printValue value ++ printMembers rest))

/-- The elements after the first, and the closing bracket. -/
def printElements : List Json → Bytes
  | [] => [0x5D]
  | element :: rest => 0x2C :: (printValue element ++ printElements rest)

/-- The members after the first, and the closing brace. -/
def printMembers : List (Bytes × Json) → Bytes
  | [] => [0x7D]
  | (name, value) :: rest =>
      0x2C :: (printString name ++ 0x3A :: (printValue value ++ printMembers rest))

end

/-! ## Reading -/

/-- A member name with its colon. -/
def parseName (text : Bytes) : Option (Bytes × Bytes) :=
  match skipSpace text with
  | 0x22 :: text => do
      let (name, text) ← parseString text
      match skipSpace text with
      | 0x3A :: text => return (name, text)
      | _ => none
  | _ => none

mutual

def parseValue : Nat → Bytes → Option (Json × Bytes)
  | 0, _ => none
  | fuel + 1, text =>
      match skipSpace text with
      | 0x22 :: text => do
          let (chars, text) ← parseString text
          return (.string chars, text)
      | 0x5B :: text =>
          match skipSpace text with
          | 0x5D :: text => some (.array [], text)
          | text => do
              let (element, text) ← parseValue fuel text
              let (rest, text) ← parseElements fuel text
              return (.array (element :: rest), text)
      | 0x7B :: text =>
          match skipSpace text with
          | 0x7D :: text => some (.object [], text)
          | text => do
              let (name, text) ← parseName text
              let (value, text) ← parseValue fuel text
              let (rest, text) ← parseMembers fuel text
              return (.object (OrderedMap.ofEntries ((name, value) :: rest)).entries, text)
      | 0x6E :: 0x75 :: 0x6C :: 0x6C :: text => some (.null, text)
      | 0x74 :: 0x72 :: 0x75 :: 0x65 :: text => some (.bool true, text)
      | 0x66 :: 0x61 :: 0x6C :: 0x73 :: 0x65 :: text => some (.bool false, text)
      | text => parseNumber text

def parseElements : Nat → Bytes → Option (List Json × Bytes)
  | 0, _ => none
  | fuel + 1, text =>
      match skipSpace text with
      | 0x5D :: text => some ([], text)
      | 0x2C :: text => do
          let (element, text) ← parseValue fuel text
          let (rest, text) ← parseElements fuel text
          return (element :: rest, text)
      | _ => none

def parseMembers : Nat → Bytes → Option (List (Bytes × Json) × Bytes)
  | 0, _ => none
  | fuel + 1, text =>
      match skipSpace text with
      | 0x7D :: text => some ([], text)
      | 0x2C :: text => do
          let (name, text) ← parseName text
          let (value, text) ← parseValue fuel text
          let (rest, text) ← parseMembers fuel text
          return ((name, value) :: rest, text)
      | _ => none

end

/-- A whole text: one document, then white space, then the end of the input
or a zero octet. -/
def parseDocument (text : Bytes) : Option Json :=
  match parseValue text.length text with
  | some (document, rest) =>
      if (skipSpace rest).headD 0 = 0 then some document else none
  | none => none

def codec : JsonText where
  dump document := if document.ValidUtf8 then some (printValue document) else none
  parse := parseDocument

/-! ## Round trip -/

/-- An octet that starts a value: no white space and no closing bracket. -/
def StartsValue (octet : UInt8) : Prop :=
  isSpace octet = false ∧ octet ≠ 0x5D ∧ octet ≠ 0x7D

instance : DecidablePred StartsValue := fun octet =>
  inferInstanceAs (Decidable (isSpace octet = false ∧ octet ≠ 0x5D ∧ octet ≠ 0x7D))

/-- An octet that starts a number: a digit or a minus sign. -/
def StartsNumber (octet : UInt8) : Prop :=
  isDigit octet = true ∨ octet = 0x2D

instance : DecidablePred StartsNumber := fun octet =>
  inferInstanceAs (Decidable (isDigit octet = true ∨ octet = 0x2D))

private theorem startsNumber_cases :
    ∀ octet : UInt8, StartsNumber octet →
      StartsValue octet ∧ octet ≠ 0x22 ∧ octet ≠ 0x5B ∧ octet ≠ 0x7B ∧
        octet ≠ 0x6E ∧ octet ≠ 0x74 ∧ octet ≠ 0x66 := by
  have everyOctet : ∀ value < 256, StartsNumber (UInt8.ofNat value) →
      StartsValue (UInt8.ofNat value) ∧ UInt8.ofNat value ≠ 0x22 ∧
        UInt8.ofNat value ≠ 0x5B ∧ UInt8.ofNat value ≠ 0x7B ∧
        UInt8.ofNat value ≠ 0x6E ∧ UInt8.ofNat value ≠ 0x74 ∧
        UInt8.ofNat value ≠ 0x66 := by
    decide +kernel
  intro octet starts
  have this := everyOctet octet.toNat octet.toNat_lt
  rw [UInt8.ofNat_toNat] at this
  exact this starts

private theorem signed_digits_head (negative : Bool) (value : Nat) (tail : Bytes) :
    ∃ first rest,
      (if negative then [0x2D] else []) ++ (digits value ++ tail) = first :: rest ∧
        StartsNumber first := by
  cases negative with
  | true =>
      exact ⟨0x2D, digits value ++ tail, rfl, Or.inr rfl⟩
  | false =>
      cases shape : digits value with
      | nil =>
          exact absurd shape (digits_ne_nil value)
      | cons first rest =>
          exact ⟨first, rest ++ tail, rfl,
            Or.inl (isDigit_of_mem_digits (shape ▸ List.mem_cons_self))⟩

private theorem printInt_head (value : Int) :
    ∃ first rest, printInt value = first :: rest ∧ StartsNumber first := by
  obtain ⟨first, rest, shape, starts⟩ :=
    signed_digits_head (decide (value < 0)) value.natAbs []
  refine ⟨first, rest, ?_, starts⟩
  rw [← shape]
  unfold printInt
  by_cases sign : value < 0
  · simp [sign]
  · simp [sign]

private theorem printDouble_head (value : Double) :
    ∃ first rest, printDouble value = first :: rest ∧ StartsNumber first :=
  signed_digits_head value.negative (value.magnitude * 5 ^ Double.bias)
    (0x65 :: 0x2D :: digits Double.bias)

private theorem printValue_head (document : Json) :
    ∃ first rest, printValue document = first :: rest ∧ StartsValue first := by
  have number : ∀ {text : Bytes},
      (∃ first rest, text = first :: rest ∧ StartsNumber first) →
        ∃ first rest, text = first :: rest ∧ StartsValue first := by
    rintro text ⟨first, rest, shape, starts⟩
    exact ⟨first, rest, shape, (startsNumber_cases first starts).1⟩
  cases document with
  | null =>
      exact ⟨_, _, rfl, by decide⟩
  | bool value =>
      cases value <;> exact ⟨_, _, rfl, by decide⟩
  | string text =>
      exact ⟨_, _, rfl, by decide⟩
  | array elements =>
      cases elements <;> exact ⟨_, _, rfl, by decide⟩
  | object members =>
      cases members <;> exact ⟨_, _, rfl, by decide⟩
  | int value =>
      exact number (printInt_head value)
  | float value =>
      unfold printValue
      split
      · exact number (printDouble_head value)
      · exact ⟨_, _, rfl, by decide⟩

private theorem skipSpace_cons {octet : UInt8} {rest : Bytes}
    (notSpace : isSpace octet = false) : skipSpace (octet :: rest) = octet :: rest := by
  simp [skipSpace, notSpace]

private theorem skipSpace_printValue (document : Json) (rest : Bytes) :
    skipSpace (printValue document ++ rest) = printValue document ++ rest := by
  obtain ⟨first, others, shape, starts⟩ := printValue_head document
  rw [shape, List.cons_append]
  exact skipSpace_cons starts.1

private theorem parseValue_number {fuel : Nat} {first : UInt8} {text : Bytes}
    (starts : StartsNumber first) :
    parseValue (fuel + 1) (first :: text) = parseNumber (first :: text) := by
  obtain ⟨value, notString, notArray, notObject, notNull, notTrue, notFalse⟩ :=
    startsNumber_cases first starts
  unfold parseValue
  rw [skipSpace_cons value.1]
  split
  all_goals first
    | (rename_i shape; exact absurd (List.cons.inj shape).1 (by assumption))
    | rfl

private theorem parseValue_string {fuel : Nat} {text : Bytes}
    (valid : validUtf8 text = true) (rest : Bytes) :
    parseValue (fuel + 1) (printString text ++ rest) = some (.string text, rest) := by
  obtain ⟨tail, shape, parsed⟩ := parseString_printString valid rest
  rw [shape]
  unfold parseValue
  rw [skipSpace_cons (by decide)]
  simp [parsed]

private theorem parseName_printString {name : Bytes}
    (valid : validUtf8 name = true) (rest : Bytes) :
    parseName (printString name ++ 0x3A :: rest) = some (name, rest) := by
  obtain ⟨tail, shape, parsed⟩ := parseString_printString valid (0x3A :: rest)
  rw [shape]
  unfold parseName
  rw [skipSpace_cons (by decide)]
  simp [parsed, skipSpace_cons (show isSpace 0x3A = false by decide)]

private theorem endsNumber_cons {octet : UInt8} {rest : Bytes}
    (ends : isDigit octet = false ∧ octet ≠ 0x2E ∧ octet ≠ 0x65 ∧ octet ≠ 0x45) :
    EndsNumber (octet :: rest) := by
  intro other member
  rw [List.head?_cons, Option.mem_some_iff] at member
  exact member ▸ ends

private theorem endsNumber_printElements (elements : List Json) (rest : Bytes) :
    EndsNumber (printElements elements ++ rest) := by
  cases elements <;> exact endsNumber_cons (by decide)

private theorem endsNumber_printMembers (members : List (Bytes × Json)) (rest : Bytes) :
    EndsNumber (printMembers members ++ rest) := by
  cases members <;> exact endsNumber_cons (by decide)

/-- The reader, with enough fuel, undoes the printer on this document. -/
private def ReadBack (document : Json) : Prop :=
  ∀ (fuel : Nat) (rest : Bytes),
    (printValue document).length ≤ fuel → EndsNumber rest →
      parseValue fuel (printValue document ++ rest) = some (document.scrub, rest)

private theorem parseElements_printElements (rest : Bytes) :
    ∀ (elements : List Json) (fuel : Nat),
      (∀ element ∈ elements, ReadBack element) →
        (printElements elements).length ≤ fuel →
          parseElements fuel (printElements elements ++ rest) =
            some (elements.map Json.scrub, rest)
  | [], 0, _, enough => by
      simp [printElements] at enough
  | [], fuel + 1, _, _ => by
      simp [printElements, parseElements, skipSpace_cons (show isSpace 0x5D = false by decide)]
  | element :: others, 0, _, enough => by
      simp [printElements] at enough
  | element :: others, fuel + 1, readBack, enough => by
      have room : (printValue element).length + (printElements others).length ≤ fuel := by
        simp only [printElements, List.length_cons, List.length_append] at enough
        omega
      have first :=
        readBack element List.mem_cons_self fuel (printElements others ++ rest) (by omega)
          (endsNumber_printElements others rest)
      have later :=
        parseElements_printElements rest others fuel
          (fun other member => readBack other (List.mem_cons_of_mem _ member)) (by omega)
      unfold parseElements printElements
      rw [List.cons_append, skipSpace_cons (by decide), List.append_assoc]
      simp [first, later]

private theorem parseMembers_printMembers (rest : Bytes) :
    ∀ (members : List (Bytes × Json)) (fuel : Nat),
      (∀ member ∈ members, validUtf8 member.1 = true ∧ ReadBack member.2) →
        (printMembers members).length ≤ fuel →
          parseMembers fuel (printMembers members ++ rest) =
            some (members.map fun member => (member.1, member.2.scrub), rest)
  | [], 0, _, enough => by
      simp [printMembers] at enough
  | [], fuel + 1, _, _ => by
      simp [printMembers, parseMembers, skipSpace_cons (show isSpace 0x7D = false by decide)]
  | (name, value) :: others, 0, _, enough => by
      simp [printMembers] at enough
  | (name, value) :: others, fuel + 1, readBack, enough => by
      have room : (printValue value).length + (printMembers others).length ≤ fuel := by
        simp only [printMembers, List.length_cons, List.length_append] at enough
        omega
      obtain ⟨valid, valueBack⟩ : validUtf8 name = true ∧ ReadBack value :=
        readBack (name, value) List.mem_cons_self
      have named :=
        parseName_printString valid (printValue value ++ (printMembers others ++ rest))
      have first :=
        valueBack fuel (printMembers others ++ rest) (by omega)
          (endsNumber_printMembers others rest)
      have later :=
        parseMembers_printMembers rest others fuel
          (fun other member => readBack other (List.mem_cons_of_mem _ member)) (by omega)
      unfold parseMembers printMembers
      rw [List.cons_append, skipSpace_cons (by decide)]
      simp [named, first, later]

private theorem readBack_literal {document : Json} {text : Bytes}
    (printed : printValue document = text) (scrubbed : document.scrub = document)
    (nonempty : text ≠ [])
    (parsed : ∀ (fuel : Nat) (rest : Bytes),
      parseValue (fuel + 1) (text ++ rest) = some (document, rest)) :
    ReadBack document := by
  intro fuel rest enough _
  rw [printed] at enough ⊢
  rw [scrubbed]
  cases fuel with
  | zero =>
      exact absurd (List.length_eq_zero_iff.mp (Nat.le_zero.mp enough)) nonempty
  | succ fuel =>
      exact parsed fuel rest

private theorem readBack_number {document : Json} {text : Bytes}
    (printed : printValue document = text) (scrubbed : document.scrub = document)
    (head : ∃ first rest, text = first :: rest ∧ StartsNumber first)
    (parsed : ∀ rest : Bytes, EndsNumber rest →
      parseNumber (text ++ rest) = some (document, rest)) :
    ReadBack document := by
  intro fuel rest enough ends
  obtain ⟨first, others, shape, starts⟩ := head
  rw [printed] at enough ⊢
  rw [scrubbed, ← parsed rest ends]
  rw [shape] at enough ⊢
  cases fuel with
  | zero =>
      simp at enough
  | succ fuel =>
      exact parseValue_number starts

private theorem readBack_array {element : Json} {others : List Json}
    (readBack : ∀ part ∈ element :: others, ReadBack part) :
    ReadBack (.array (element :: others)) := by
  intro fuel rest enough _
  cases fuel with
  | zero =>
      simp [printValue] at enough
  | succ fuel =>
      have room : (printValue element).length + (printElements others).length ≤ fuel := by
        simp only [printValue, List.length_cons, List.length_append] at enough
        omega
      have first :=
        readBack element List.mem_cons_self fuel (printElements others ++ rest) (by omega)
          (endsNumber_printElements others rest)
      have later :=
        parseElements_printElements rest others fuel
          (fun other member => readBack other (List.mem_cons_of_mem _ member)) (by omega)
      obtain ⟨octet, tail, shape, starts⟩ := printValue_head element
      unfold parseValue printValue
      rw [List.cons_append, skipSpace_cons (by decide), List.append_assoc]
      simp only
      rw [skipSpace_printValue]
      split
      · rename_i shape'
        rw [shape, List.cons_append] at shape'
        exact absurd (List.cons.inj shape').1 starts.2.1
      · simp [first, later]

private theorem readBack_object {name : Bytes} {value : Json}
    {others : List (Bytes × Json)} (sorted : KeySorted ((name, value) :: others))
    (readBack : ∀ member ∈ (name, value) :: others,
      validUtf8 member.1 = true ∧ ReadBack member.2) :
    ReadBack (.object ((name, value) :: others)) := by
  intro fuel rest enough _
  cases fuel with
  | zero =>
      simp [printValue] at enough
  | succ fuel =>
      have room : (printValue value).length + (printMembers others).length ≤ fuel := by
        simp only [printValue, List.length_cons, List.length_append] at enough
        omega
      obtain ⟨valid, valueBack⟩ : validUtf8 name = true ∧ ReadBack value :=
        readBack (name, value) List.mem_cons_self
      have named :=
        parseName_printString valid (printValue value ++ (printMembers others ++ rest))
      have first :=
        valueBack fuel (printMembers others ++ rest) (by omega)
          (endsNumber_printMembers others rest)
      have later :=
        parseMembers_printMembers rest others fuel
          (fun other member => readBack other (List.mem_cons_of_mem _ member)) (by omega)
      have rebuilt :
          (OrderedMap.ofEntries
            (((name, value) :: others).map fun member => (member.1, member.2.scrub))).entries =
          ((name, value) :: others).map fun member => (member.1, member.2.scrub) :=
        OrderedMap.entries_ofEntries (List.pairwise_map.mpr sorted)
      unfold parseValue printValue
      rw [List.cons_append, skipSpace_cons (by decide)]
      simp only [List.append_assoc, List.cons_append]
      have notEmpty :
          skipSpace (printString name ++ 0x3A :: (printValue value ++ (printMembers others ++ rest))) =
            printString name ++ 0x3A :: (printValue value ++ (printMembers others ++ rest)) :=
        skipSpace_cons (by decide)
      rw [notEmpty]
      split
      · rename_i shape
        exact absurd (List.cons.inj shape).1 (by decide)
      · rw [List.map_cons] at rebuilt
        simp [named, first, later, rebuilt]

/-- The reader undoes the printer, up to floats without a JSON form. -/
private theorem readBack (document : Json)
    (wellFormed : document.WellFormed) (valid : document.ValidUtf8) :
    ReadBack document := by
  unfold Json.WellFormed Json.ValidUtf8 at *
  induction document with
  | null =>
      exact readBack_literal rfl rfl (by decide) (fun _ _ => rfl)
  | bool value =>
      cases value
      · exact readBack_literal rfl rfl (by decide) (fun _ _ => rfl)
      · exact readBack_literal rfl rfl (by decide) (fun _ _ => rfl)
  | int value =>
      exact readBack_number (by rw [printValue]) rfl (printInt_head value)
        (fun _ ends => parseNumber_printInt wellFormed ends)
  | float value =>
      by_cases finite : value.isFinite = true
      · exact readBack_number (by rw [printValue, if_pos finite])
          (by rw [Json.scrub_float, if_pos finite]) (printDouble_head value)
          (fun _ ends => parseNumber_printDouble finite ends)
      · have asNull : ReadBack .null :=
          readBack_literal rfl rfl (by decide) (fun _ _ => rfl)
        unfold ReadBack at asNull ⊢
        rw [printValue, if_neg finite, Json.scrub_float, if_neg finite]
        exact asNull
  | string text =>
      have printed : printValue (.string text) = printString text := by
        rw [printValue]
      exact readBack_literal printed rfl (by simp [printString])
        (fun _ rest => parseValue_string valid rest)
  | array elements inductionHypothesis =>
      cases elements with
      | nil =>
          exact readBack_literal rfl (by simp) (by decide) (fun _ _ => rfl)
      | cons element others =>
          rw [Json.everywhere_array] at wellFormed valid
          exact readBack_array fun part member =>
            inductionHypothesis part member (wellFormed.2 part member) (valid.2 part member)
  | object members inductionHypothesis =>
      cases members with
      | nil =>
          exact readBack_literal rfl (by simp) (by decide) (fun _ _ => rfl)
      | cons member others =>
          rw [Json.everywhere_object] at wellFormed valid
          exact readBack_object wellFormed.1 fun part inMembers =>
            ⟨valid.1 part inMembers,
              inductionHypothesis part inMembers (wellFormed.2 part inMembers)
                (valid.2 part inMembers)⟩

/-! ## The other laws -/

/-- What every document read from text satisfies. -/
private def Sound (document : Json) : Prop :=
  document.WellFormed ∧ document.ValidUtf8 ∧ document.Finite

private theorem sound_array {elements : List Json}
    (parts : ∀ element ∈ elements, Sound element) : Sound (.array elements) := by
  refine ⟨?_, ?_, ?_⟩
  · exact (Json.everywhere_array elements).mpr
      ⟨trivial, fun element member => (parts element member).1⟩
  · exact (Json.everywhere_array elements).mpr
      ⟨trivial, fun element member => (parts element member).2.1⟩
  · exact (Json.everywhere_array elements).mpr
      ⟨trivial, fun element member => (parts element member).2.2⟩

private theorem sound_object {members : List (Bytes × Json)}
    (parts : ∀ member ∈ members, validUtf8 member.1 = true ∧ Sound member.2) :
    Sound (.object (OrderedMap.ofEntries members).entries) := by
  have kept : ∀ member ∈ (OrderedMap.ofEntries members).entries,
      validUtf8 member.1 = true ∧ Sound member.2 :=
    fun member inMap => parts member (OrderedMap.mem_of_mem_ofEntries inMap)
  refine ⟨?_, ?_, ?_⟩
  · exact (Json.everywhere_object _).mpr
      ⟨(OrderedMap.ofEntries members).sorted, fun member inMap => (kept member inMap).2.1⟩
  · exact (Json.everywhere_object _).mpr
      ⟨fun member inMap => (kept member inMap).1, fun member inMap => (kept member inMap).2.2.1⟩
  · exact (Json.everywhere_object _).mpr
      ⟨trivial, fun member inMap => (kept member inMap).2.2.2⟩

private theorem parseName_valid {text name rest : Bytes}
    (parsed : parseName text = some (name, rest)) : validUtf8 name = true := by
  unfold parseName at parsed
  split at parsed
  · obtain ⟨⟨chars, after⟩, read, parsed⟩ := Option.bind_eq_some_iff.mp parsed
    dsimp only at parsed
    split at parsed
    · cases parsed
      exact parseString_valid read
    · cases parsed
  · cases parsed

/-- Whatever the reader accepts is sound, by induction on its fuel. -/
private theorem parse_sound (fuel : Nat) :
    (∀ {text : Bytes} {document : Json} {rest : Bytes},
      parseValue fuel text = some (document, rest) → Sound document) ∧
    (∀ {text : Bytes} {elements : List Json} {rest : Bytes},
      parseElements fuel text = some (elements, rest) →
        ∀ element ∈ elements, Sound element) ∧
    (∀ {text : Bytes} {members : List (Bytes × Json)} {rest : Bytes},
      parseMembers fuel text = some (members, rest) →
        ∀ member ∈ members, validUtf8 member.1 = true ∧ Sound member.2) := by
  induction fuel with
  | zero =>
      refine ⟨?_, ?_, ?_⟩
      · intro text document rest parsed
        cases parsed
      · intro text elements rest parsed
        cases parsed
      · intro text members rest parsed
        cases parsed
  | succ fuel inductionHypothesis =>
      obtain ⟨valueSound, elementsSound, membersSound⟩ := inductionHypothesis
      refine ⟨?_, ?_, ?_⟩
      · intro text document rest parsed
        unfold parseValue at parsed
        split at parsed
        · obtain ⟨⟨chars, after⟩, read, parsed⟩ := Option.bind_eq_some_iff.mp parsed
          cases parsed
          exact ⟨trivial, parseString_valid read, trivial⟩
        · split at parsed
          · cases parsed
            exact sound_array (fun _ member => absurd member List.not_mem_nil)
          · obtain ⟨⟨element, afterFirst⟩, first, parsed⟩ := Option.bind_eq_some_iff.mp parsed
            obtain ⟨⟨others, afterOthers⟩, later, parsed⟩ := Option.bind_eq_some_iff.mp parsed
            cases parsed
            exact sound_array
              (List.forall_mem_cons.mpr ⟨valueSound first, elementsSound later⟩)
        · split at parsed
          · cases parsed
            exact sound_object (fun _ member => absurd member List.not_mem_nil)
          · obtain ⟨⟨name, afterName⟩, named, parsed⟩ := Option.bind_eq_some_iff.mp parsed
            obtain ⟨⟨value, afterFirst⟩, first, parsed⟩ := Option.bind_eq_some_iff.mp parsed
            obtain ⟨⟨others, afterOthers⟩, later, parsed⟩ := Option.bind_eq_some_iff.mp parsed
            cases parsed
            exact sound_object
              (List.forall_mem_cons.mpr
                ⟨⟨parseName_valid named, valueSound first⟩, membersSound later⟩)
        · cases parsed
          exact ⟨trivial, trivial, trivial⟩
        · cases parsed
          exact ⟨trivial, trivial, trivial⟩
        · cases parsed
          exact ⟨trivial, trivial, trivial⟩
        · exact parseNumber_sound parsed
      · intro text elements rest parsed
        unfold parseElements at parsed
        split at parsed
        · cases parsed
          exact fun _ member => absurd member List.not_mem_nil
        · obtain ⟨⟨element, afterFirst⟩, first, parsed⟩ := Option.bind_eq_some_iff.mp parsed
          obtain ⟨⟨others, afterOthers⟩, later, parsed⟩ := Option.bind_eq_some_iff.mp parsed
          cases parsed
          exact List.forall_mem_cons.mpr ⟨valueSound first, elementsSound later⟩
        · cases parsed
      · intro text members rest parsed
        unfold parseMembers at parsed
        split at parsed
        · cases parsed
          exact fun _ member => absurd member List.not_mem_nil
        · obtain ⟨⟨name, afterName⟩, named, parsed⟩ := Option.bind_eq_some_iff.mp parsed
          obtain ⟨⟨value, afterFirst⟩, first, parsed⟩ := Option.bind_eq_some_iff.mp parsed
          obtain ⟨⟨others, afterOthers⟩, later, parsed⟩ := Option.bind_eq_some_iff.mp parsed
          cases parsed
          exact List.forall_mem_cons.mpr
            ⟨⟨parseName_valid named, valueSound first⟩, membersSound later⟩
        · cases parsed

private theorem printElements_noZero :
    ∀ elements : List Json,
      (∀ element ∈ elements, (0 : UInt8) ∉ printValue element) →
        (0 : UInt8) ∉ printElements elements
  | [], _ => by
      decide
  | element :: others, parts => by
      obtain ⟨first, later⟩ := List.forall_mem_cons.mp parts
      simp [printElements, first, printElements_noZero others later]

private theorem printMembers_noZero :
    ∀ members : List (Bytes × Json),
      (∀ member ∈ members, (0 : UInt8) ∉ printValue member.2) →
        (0 : UInt8) ∉ printMembers members
  | [], _ => by
      decide
  | (name, value) :: others, parts => by
      obtain ⟨first, later⟩ := List.forall_mem_cons.mp parts
      have nameFree : (0 : UInt8) ∉ printString name :=
        fun member => ne_zero_of_mem_printString member rfl
      simp [printMembers, nameFree, first, printMembers_noZero others later]

private theorem printValue_noZero (document : Json) :
    (0 : UInt8) ∉ printValue document := by
  induction document with
  | null =>
      decide
  | bool value =>
      cases value <;> decide
  | int value =>
      rw [printValue]
      exact fun member => ne_zero_of_mem_printInt member rfl
  | float value =>
      rw [printValue]
      split
      · exact fun member => ne_zero_of_mem_printDouble member rfl
      · decide
  | string text =>
      rw [printValue]
      exact fun member => ne_zero_of_mem_printString member rfl
  | array elements inductionHypothesis =>
      cases elements with
      | nil =>
          decide
      | cons element others =>
          obtain ⟨first, later⟩ := List.forall_mem_cons.mp inductionHypothesis
          simp [printValue, first, printElements_noZero others later]
  | object members inductionHypothesis =>
      cases members with
      | nil =>
          decide
      | cons member others =>
          obtain ⟨name, value⟩ := member
          obtain ⟨first, later⟩ := List.forall_mem_cons.mp inductionHypothesis
          have nameFree : (0 : UInt8) ∉ printString name :=
            fun member => ne_zero_of_mem_printString member rfl
          simp [printValue, nameFree, first, printMembers_noZero others later]

theorem codec_lawful : codec.Lawful where
  parse_dump document wellFormed valid := by
    refine ⟨printValue document, if_pos valid, ?_⟩
    have read :=
      readBack document wellFormed valid (printValue document).length []
        (Nat.le_refl _) (fun _ member => by cases member)
    rw [List.append_nil] at read
    change parseDocument (printValue document) = _
    unfold parseDocument
    rw [read]
    rfl
  dump_invalid document invalid := if_neg invalid
  dump_noZero document bytes dumped := by
    change (if document.ValidUtf8 then some (printValue document) else none) = _ at dumped
    split at dumped
    · cases dumped
      exact printValue_noZero document
    · cases dumped
  parse_sound bytes document parsed := by
    change parseDocument bytes = some document at parsed
    unfold parseDocument at parsed
    split at parsed
    · rename_i value
      split at parsed
      · cases parsed
        exact (parse_sound bytes.length).1 value
      · cases parsed
    · cases parsed
  parse_nil := rfl

example : codec.parse (ascii "[1, \"a\", null] ") =
    some (.array [.int 1, .string (ascii "a"), .null]) := by
  rfl

example : codec.dump (.array [.int (-12), .object [(ascii "k", .bool true)]]) =
    some (ascii "[-12,\x7b\"k\":true\x7d]") := by
  rfl

end Ccmqsrv.Foundations
