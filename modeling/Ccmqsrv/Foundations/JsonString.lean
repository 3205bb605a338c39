import Ccmqsrv.Foundations.Bytes
import Mathlib.Tactic.IntervalCases

/-!
# Strings in JSON text

The printer escapes the quotation mark, the backslash and the control
characters, octet by octet; every other octet stands for itself.  The reader
takes one character or escape at a time, so that the round trip is an
induction over the octets of the string.
-/

namespace Ccmqsrv.Foundations

def hexDigit (value : UInt8) : UInt8 :=
  if value < 10 then 0x30 + value else 0x57 + value

def escapeOctet (octet : UInt8) : Bytes :=
  if octet = 0x22 then ascii "\\\""
  else if octet = 0x5C then ascii "\\\\"
  else if octet = 0x08 then ascii "\\b"
  else if octet = 0x0C then ascii "\\f"
  else if octet = 0x0A then ascii "\\n"
  else if octet = 0x0D then ascii "\\r"
  else if octet = 0x09 then ascii "\\t"
  else if octet < 0x20 then
    ascii "\\u00" ++ [hexDigit (octet / 16), hexDigit (octet % 16)]
  else [octet]

/-- A string token, quotation marks included. -/
def printString (text : Bytes) : Bytes :=
  0x22 :: (text.flatMap escapeOctet ++ [0x22])

def hexValue (octet : UInt8) : Option Nat :=
  if 0x30 ≤ octet ∧ octet ≤ 0x39 then some (octet.toNat - 0x30)
  else if 0x41 ≤ octet ∧ octet ≤ 0x46 then some (octet.toNat - 0x37)
  else if 0x61 ≤ octet ∧ octet ≤ 0x66 then some (octet.toNat - 0x57)
  else none

/-- Four hexadecimal digits. -/
def scanHex : Bytes → Option (Nat × Bytes)
  | a :: b :: c :: d :: rest => do
      let a ← hexValue a
      let b ← hexValue b
      let c ← hexValue c
      let d ← hexValue d
      return (((a * 16 + b) * 16 + c) * 16 + d, rest)
  | _ => none

def encodeUtf8 (point : Nat) : Bytes :=
  if point < 0x80 then
    [UInt8.ofNat point]
  else if point < 0x800 then
    [UInt8.ofNat (0xC0 + point / 64), UInt8.ofNat (0x80 + point % 64)]
  else if point < 0x10000 then
    [UInt8.ofNat (0xE0 + point / 4096), UInt8.ofNat (0x80 + point / 64 % 64),
      UInt8.ofNat (0x80 + point % 64)]
  else
    [UInt8.ofNat (0xF0 + point / 262144), UInt8.ofNat (0x80 + point / 4096 % 64),
      UInt8.ofNat (0x80 + point / 64 % 64), UInt8.ofNat (0x80 + point % 64)]

/-- A `\u` escape after its letter; surrogates come in pairs. -/
def scanUnicode (text : Bytes) : Option (Bytes × Bytes) := do
  let (point, text) ← scanHex text
  if 0xD800 ≤ point ∧ point < 0xDC00 then
    match text with
    | 0x5C :: 0x75 :: text =>
        let (low, text) ← scanHex text
        if 0xDC00 ≤ low ∧ low < 0xE000 then
          return (encodeUtf8 (0x10000 + (point - 0xD800) * 1024 + (low - 0xDC00)), text)
        else
          none
    | _ => none
  else if 0xDC00 ≤ point ∧ point < 0xE000 then
    none
  else
    return (encodeUtf8 point, text)

/-- One character of a string: its octets and the text after it. -/
def scanChar : Bytes → Option (Bytes × Bytes)
  | 0x5C :: 0x75 :: rest => scanUnicode rest
  | 0x5C :: 0x22 :: rest => some ([0x22], rest)
  | 0x5C :: 0x5C :: rest => some ([0x5C], rest)
  | 0x5C :: 0x2F :: rest => some ([0x2F], rest)
  | 0x5C :: 0x62 :: rest => some ([0x08], rest)
  | 0x5C :: 0x66 :: rest => some ([0x0C], rest)
  | 0x5C :: 0x6E :: rest => some ([0x0A], rest)
  | 0x5C :: 0x72 :: rest => some ([0x0D], rest)
  | 0x5C :: 0x74 :: rest => some ([0x09], rest)
  | octet :: rest => if octet = 0x5C ∨ octet < 0x20 then none else some ([octet], rest)
  | [] => none

/-- The characters up to the closing quotation mark. -/
def scanString : Nat → Bytes → Option (Bytes × Bytes)
  | 0, _ => none
  | fuel + 1, text =>
      if text.head? = some 0x22 then
        some ([], text.tail)
      else do
        let (char, text) ← scanChar text
        let (chars, text) ← scanString fuel text
        return (char ++ chars, text)

/-- A string token after its opening quotation mark. -/
def parseString (text : Bytes) : Option (Bytes × Bytes) := do
  let (chars, rest) ← scanString text.length text
  if validUtf8 chars then
    return (chars, rest)
  else
    none

private theorem scanChar_plain {octet : UInt8} {rest : Bytes}
    (notBackslash : octet ≠ 0x5C) (notControl : ¬ octet < 0x20) :
    scanChar (octet :: rest) = some ([octet], rest) := by
  unfold scanChar
  split
  all_goals first
    | (rename_i shape; exact absurd (List.cons.inj shape).1 notBackslash)
    | skip
  · rename_i shape
    obtain ⟨rfl, rfl⟩ := List.cons.inj shape
    simp [notBackslash, notControl]
  · rename_i shape
    cases shape

/-- An escaped octet is read back as itself. -/
theorem scanChar_escapeOctet (octet : UInt8) (rest : Bytes) :
    scanChar (escapeOctet octet ++ rest) = some ([octet], rest) := by
  by_cases control : octet < 0x20
  · have small : octet.toNat < 32 := UInt8.lt_iff_toNat_lt.mp control
    obtain ⟨value, valueEq⟩ : ∃ value, value = octet.toNat := ⟨_, rfl⟩
    have octetEq : octet = UInt8.ofNat value := by
      rw [valueEq, UInt8.ofNat_toNat]
    rw [← valueEq] at small
    subst octetEq
    clear valueEq control
    interval_cases value <;> rfl
  · unfold escapeOctet
    split
    · rename_i quote
      rw [quote]
      rfl
    · split
      · rename_i backslash
        rw [backslash]
        rfl
      · rename_i notBackslash
        have notEscape : ∀ escape : UInt8, escape < 0x20 → octet ≠ escape := by
          rintro escape below rfl
          exact control below
        rw [if_neg (notEscape _ (by decide)), if_neg (notEscape _ (by decide)),
          if_neg (notEscape _ (by decide)), if_neg (notEscape _ (by decide)),
          if_neg (notEscape _ (by decide))]
        exact scanChar_plain notBackslash control

theorem escapeOctet_head (octet : UInt8) :
    ∃ first rest, escapeOctet octet = first :: rest ∧ first ≠ 0x22 := by
  by_cases quote : octet = 0x22
  · rw [quote]
    exact ⟨0x5C, [0x22], rfl, by decide⟩
  · unfold escapeOctet
    rw [if_neg quote]
    iterate 7
      split
      · exact ⟨_, _, rfl, by decide⟩
    exact ⟨octet, [], rfl, quote⟩

private theorem scanString_escaped (rest : Bytes) :
    ∀ (text : Bytes) (fuel : Nat), text.length < fuel →
      scanString fuel (text.flatMap escapeOctet ++ 0x22 :: rest) = some (text, rest)
  | [], fuel + 1, _ => by
      simp [scanString]
  | octet :: text, fuel + 1, enough => by
      obtain ⟨first, others, shape, notQuote⟩ := escapeOctet_head octet
      have read := scanChar_escapeOctet octet (text.flatMap escapeOctet ++ 0x22 :: rest)
      have later := scanString_escaped rest text fuel (by
        rw [List.length_cons] at enough
        omega)
      rw [List.flatMap_cons, List.append_assoc]
      unfold scanString
      rw [if_neg (by simp [shape, notQuote]), read]
      simp [later]

private theorem length_le_flatMap_escapeOctet (text : Bytes) :
    text.length ≤ (text.flatMap escapeOctet).length := by
  induction text with
  | nil =>
      simp
  | cons octet text inductionHypothesis =>
      obtain ⟨first, others, shape, -⟩ := escapeOctet_head octet
      rw [List.flatMap_cons, List.length_append, shape, List.length_cons, List.length_cons]
      omega

/-- A printed string is read back. -/
theorem parseString_printString {text : Bytes} (valid : validUtf8 text = true)
    (rest : Bytes) :
    ∃ tail, printString text ++ rest = 0x22 :: tail ∧
      parseString tail = some (text, rest) := by
  refine ⟨text.flatMap escapeOctet ++ 0x22 :: rest, by simp [printString], ?_⟩
  have lengthBound := length_le_flatMap_escapeOctet text
  have scanned :=
    scanString_escaped rest text (text.flatMap escapeOctet ++ 0x22 :: rest).length (by
      rw [List.length_append, List.length_cons]
      omega)
  unfold parseString
  refine Option.bind_eq_some_iff.mpr ⟨_, scanned, ?_⟩
  exact if_pos valid

theorem parseString_valid {text chars rest : Bytes}
    (parsed : parseString text = some (chars, rest)) : validUtf8 chars = true := by
  unfold parseString at parsed
  obtain ⟨⟨scanned, after⟩, -, checked⟩ := Option.bind_eq_some_iff.mp parsed
  dsimp only at checked
  split at checked
  · rename_i valid
    cases checked
    exact valid
  · cases checked

theorem ne_zero_of_mem_printString {text : Bytes} {octet : UInt8}
    (member : octet ∈ printString text) : octet ≠ 0 := by
  have escaped : ∀ source : UInt8, (0 : UInt8) ∉ escapeOctet source := by
    intro source
    by_cases control : source < 0x20
    · have small : source.toNat < 32 := UInt8.lt_iff_toNat_lt.mp control
      obtain ⟨value, valueEq⟩ : ∃ value, value = source.toNat := ⟨_, rfl⟩
      have sourceEq : source = UInt8.ofNat value := by
        rw [valueEq, UInt8.ofNat_toNat]
      rw [← valueEq] at small
      subst sourceEq
      clear valueEq control
      interval_cases value <;> decide
    · unfold escapeOctet
      iterate 7
        split
        · decide
      rw [List.mem_singleton]
      rintro rfl
      exact control (by decide)
  rintro rfl
  unfold printString at member
  rcases List.mem_cons.mp member with quote | inner
  · exact absurd quote (by decide)
  · rcases List.mem_append.mp inner with inText | quote
    · obtain ⟨source, -, inEscape⟩ := List.mem_flatMap.mp inText
      exact escaped source inEscape
    · exact absurd quote (by decide)

end Ccmqsrv.Foundations
