import Mathlib.Data.UInt
import Mathlib.Order.Defs.LinearOrder
import Mathlib.Data.List.Lex
import Mathlib.Data.List.TakeWhile

/-!
# Byte strings

A byte string is a list of octets, compared byte by byte.  This module fixes
the order, the reading of a zero-terminated buffer, and the automaton that
recognises well-formed UTF-8.

The automaton keeps one state for every way a multi-octet sequence can be
left open, because the first continuation octet of some lead octets has a
narrower range than the others.
-/

namespace Ccmqsrv.Foundations

instance octetOrder : LinearOrder UInt8 where
  le_refl := UInt8.le_refl
  le_trans := fun _ _ _ => UInt8.le_trans
  le_antisymm := fun _ _ => UInt8.le_antisymm
  le_total := UInt8.le_total
  lt_iff_le_not_ge := fun left right => by
    rw [UInt8.not_le]
    exact ⟨fun less => ⟨UInt8.le_of_lt less, less⟩, fun both => both.2⟩
  toDecidableLE := inferInstance
  toDecidableEq := inferInstance
  toDecidableLT := inferInstance

/-- A string of octets. -/
abbrev Bytes := List UInt8

/-- The octets of an ASCII literal. -/
def ascii (text : String) : Bytes :=
  text.toList.map Char.toUInt8

/-- The string a zero-terminated reader sees: everything before the first
zero octet. -/
def cString (bytes : Bytes) : Bytes :=
  bytes.takeWhile (· ≠ 0)

@[simp]
theorem cString_nil : cString [] = [] :=
  rfl

theorem cString_eq_self {bytes : Bytes} (noZero : (0 : UInt8) ∉ bytes) :
    cString bytes = bytes := by
  refine List.takeWhile_eq_self_iff.mpr fun octet member => ?_
  simp only [ne_eq, decide_not, Bool.not_eq_eq_eq_not, Bool.not_true, decide_eq_false_iff_not]
  intro zero
  exact noZero (zero ▸ member)

@[simp]
theorem cString_idem (bytes : Bytes) : cString (cString bytes) = cString bytes :=
  List.takeWhile_idem

namespace Utf8

/-- What is still owed to the current character. -/
inductive State where
  | start
  | tail1
  | tail2
  | tail3
  | afterE0
  | afterED
  | afterF0
  | afterF4
  deriving DecidableEq, Repr

/-- The state after `octet`, when it lies between `low` and `high`. -/
def within (low high octet : UInt8) (next : State) : Option State :=
  if low ≤ octet ∧ octet ≤ high then some next else none

/-- The state after the first octet of a character. -/
def lead (octet : UInt8) : Option State :=
  if octet ≤ 0x7F then some .start
  else if 0xC2 ≤ octet ∧ octet ≤ 0xDF then some .tail1
  else if octet = 0xE0 then some .afterE0
  else if octet = 0xED then some .afterED
  else if 0xE1 ≤ octet ∧ octet ≤ 0xEF then some .tail2
  else if octet = 0xF0 then some .afterF0
  else if 0xF1 ≤ octet ∧ octet ≤ 0xF3 then some .tail3
  else if octet = 0xF4 then some .afterF4
  else none

def step : State → UInt8 → Option State
  | .start, octet => lead octet
  | .tail1, octet => within 0x80 0xBF octet .start
  | .tail2, octet => within 0x80 0xBF octet .tail1
  | .tail3, octet => within 0x80 0xBF octet .tail2
  | .afterE0, octet => within 0xA0 0xBF octet .tail1
  | .afterED, octet => within 0x80 0x9F octet .tail1
  | .afterF0, octet => within 0x90 0xBF octet .tail2
  | .afterF4, octet => within 0x80 0x8F octet .tail2

end Utf8

/-- A byte string is valid UTF-8 when the automaton ends between characters. -/
def validUtf8 (bytes : Bytes) : Bool :=
  bytes.foldlM Utf8.step .start == some .start

@[simp]
theorem validUtf8_nil : validUtf8 [] = true :=
  rfl

private theorem start_of_step_zero {state next : Utf8.State}
    (stepped : Utf8.step state 0 = some next) : state = .start := by
  cases state with
  | start => rfl
  | _ => cases stepped

private theorem foldlM_cString :
    ∀ {bytes : Bytes} {state : Utf8.State},
      bytes.foldlM Utf8.step state = some .start →
        (cString bytes).foldlM Utf8.step state = some .start
  | [], _, accepted => accepted
  | octet :: rest, state, accepted => by
      rw [List.foldlM_cons] at accepted
      obtain ⟨next, stepped, tail⟩ := Option.bind_eq_some_iff.mp accepted
      by_cases isZero : octet = 0
      · subst isZero
        have atStart := start_of_step_zero stepped
        rw [atStart]
        rfl
      · have kept : cString (octet :: rest) = octet :: cString rest :=
          List.takeWhile_cons_of_pos (by simpa using isZero)
        rw [kept, List.foldlM_cons, stepped]
        exact foldlM_cString tail

/-- Cutting a text at a zero octet never cuts a character. -/
theorem validUtf8_cString {bytes : Bytes} (valid : validUtf8 bytes = true) :
    validUtf8 (cString bytes) = true := by
  unfold validUtf8 at *
  rw [foldlM_cString (eq_of_beq valid)]
  rfl

end Ccmqsrv.Foundations
