import Ccmqsrv.Foundations.Json
import Mathlib.Algebra.Order.Ring.Nat
import Mathlib.Tactic.Ring
import Mathlib.Tactic.IntervalCases
import Mathlib.Data.List.TakeWhile

/-!
# Numbers in JSON text

Integers are printed in decimal.  A finite float is printed as the exact
decimal `d e-1074`, where `d` is its magnitude in units of `10 ^ (-1074)`;
the reader rounds any decimal to the nearest float, ties to even.  An exact
decimal is therefore read back bit for bit, which is all a reader of the
printed text relies on (a shortest-digits printer writes the same value with
fewer characters).
-/

namespace Ccmqsrv.Foundations

def isDigit (octet : UInt8) : Bool :=
  0x30 ≤ octet && octet ≤ 0x39

/-- Decimal digits of a natural number, as octets. -/
def digits (value : Nat) : Bytes :=
  (Nat.toDigits 10 value).map Char.toUInt8

/-- The number a digit string denotes. -/
def ofDigits (text : Bytes) : Nat :=
  text.foldl (fun current octet => 10 * current + (octet.toNat - 48)) 0

private theorem digitChar_toUInt8 {char : Char} (isDigitChar : char.isDigit = true) :
    isDigit char.toUInt8 = true ∧ char.toUInt8.toNat = char.toNat := by
  have bounds : 48 ≤ char.toNat ∧ char.toNat ≤ 57 := by
    simp only [Char.isDigit, Bool.and_eq_true, decide_eq_true_eq,
      UInt32.le_iff_toNat_le] at isDigitChar
    exact isDigitChar
  have same : char.toUInt8.toNat = char.toNat := by
    simp only [Char.toUInt8, UInt32.toNat_toUInt8]
    exact Nat.mod_eq_of_lt (by change char.toNat < 256; omega)
  refine ⟨?_, same⟩
  simp only [isDigit, Bool.and_eq_true, decide_eq_true_eq, UInt8.le_iff_toNat_le, same]
  exact bounds

theorem isDigit_of_mem_digits {value : Nat} {octet : UInt8}
    (member : octet ∈ digits value) : isDigit octet = true := by
  obtain ⟨char, charMember, rfl⟩ := List.mem_map.mp member
  exact (digitChar_toUInt8 (Nat.isDigit_of_mem_toDigits (by decide) (by decide) charMember)).1

theorem digits_ne_nil (value : Nat) : digits value ≠ [] := by
  simp [digits]

@[simp]
theorem ofDigits_digits (value : Nat) : ofDigits (digits value) = value := by
  have perDigit : ∀ (chars : List Char) (start : Nat),
      (∀ char ∈ chars, char.isDigit = true) →
        (chars.map Char.toUInt8).foldl
            (fun current octet => 10 * current + (octet.toNat - 48)) start =
          Nat.ofDigitChars 10 chars start := by
    intro chars
    induction chars with
    | nil =>
        intro start _
        simp
    | cons char rest inductionHypothesis =>
        intro start allDigits
        have head := (digitChar_toUInt8 (allDigits char List.mem_cons_self)).2
        rw [List.map_cons, List.foldl_cons, Nat.ofDigitChars_cons, head]
        exact inductionHypothesis _
          (fun later member => allDigits later (List.mem_cons_of_mem _ member))
  unfold ofDigits digits
  rw [perDigit _ 0 fun char member =>
    Nat.isDigit_of_mem_toDigits (by decide) (by decide) member]
  exact Nat.ofDigitChars_ten_toDigits

/-- A number with two or more digits has no leading zero. -/
def noLeadingZero (text : Bytes) : Bool :=
  match text with
  | 0x30 :: _ :: _ => false
  | _ => true

theorem noLeadingZero_digits (value : Nat) : noLeadingZero (digits value) = true := by
  by_cases small : value < 10
  · unfold digits
    rw [Nat.toDigits_of_lt_base small]
    simp [noLeadingZero]
  · have positive : ∀ bound number : Nat, number < bound → 0 < number →
        (digits number).head? ≠ some 0x30 := by
      intro bound
      induction bound with
      | zero =>
          intro number impossible
          omega
      | succ bound inductionHypothesis =>
          intro number below numberPositive
          by_cases single : number < 10
          · unfold digits
            rw [Nat.toDigits_of_lt_base single]
            interval_cases number <;> decide
          · unfold digits
            rw [Nat.toDigits_of_base_le (by decide) (by omega), List.map_append]
            change (digits (number / 10) ++ _).head? ≠ some 0x30
            rw [List.head?_append_of_ne_nil _ (digits_ne_nil (number / 10))]
            exact inductionHypothesis (number / 10) (by omega) (by omega)
    have head := positive (value + 1) value (by omega) (by omega)
    unfold noLeadingZero
    split
    · rename_i shape
      rw [shape] at head
      simp at head
    · rfl

namespace Double

/-- The smallest positive subnormal is `2 ^ (-bias)`. -/
@[irreducible]
def bias : Nat := 1074

/-- `numerator / denominator` in units of `2 ^ (-bias)`, rounded to the nearest
pattern, ties to even. -/
def round (numerator denominator : Nat) : Nat :=
  let shift := (numerator / denominator).log2 - 52
  let unit := denominator * 2 ^ shift
  let quotient := numerator / unit
  let remainder := numerator % unit
  let up := unit < 2 * remainder ∨ (unit = 2 * remainder ∧ quotient % 2 = 1)
  shift * 2 ^ 52 + (if up then quotient + 1 else quotient)

private theorem round_of_eq {numerator denominator shift significand : Nat}
    (positive : 0 < denominator)
    (exact_ : numerator = significand * 2 ^ shift * denominator)
    (shiftEq : (significand * 2 ^ shift).log2 - 52 = shift) :
    round numerator denominator = shift * 2 ^ 52 + significand := by
  have value : numerator / denominator = significand * 2 ^ shift := by
    rw [exact_, Nat.mul_div_cancel _ positive]
  have regrouped : numerator = significand * (denominator * 2 ^ shift) := by
    rw [exact_]
    ring
  have unitPositive : 0 < denominator * 2 ^ shift := by positivity
  unfold round
  simp only [value, shiftEq]
  rw [regrouped, Nat.mul_div_cancel _ unitPositive, Nat.mul_mod_left]
  simp [Nat.ne_of_gt positive]

/-- Rounding an exact value gives the pattern it came from. -/
theorem round_magnitude (value : Double) {denominator : Nat} (positive : 0 < denominator) :
    round (value.magnitude * denominator) denominator = value.unsignedBits := by
  unfold magnitude
  split
  · rename_i subnormal
    have shiftEq : (value.unsignedBits * 2 ^ 0).log2 - 52 = 0 := by
      by_cases isZero : value.unsignedBits = 0
      · rw [isZero]
        decide
      · have below := (Nat.log2_lt (k := 52) isZero).mpr subnormal
        rw [pow_zero, mul_one]
        omega
    rw [round_of_eq positive (by rw [pow_zero, mul_one]) shiftEq]
    omega
  · rename_i normal
    obtain ⟨exponent, exponentEq⟩ : ∃ exponent, value.unsignedBits / 2 ^ 52 = exponent + 1 :=
      Nat.exists_eq_succ_of_ne_zero (by omega)
    have fraction : value.unsignedBits % 2 ^ 52 < 2 ^ 52 := Nat.mod_lt _ (by positivity)
    have divMod := Nat.div_add_mod value.unsignedBits (2 ^ 52)
    rw [exponentEq] at divMod
    rw [exponentEq, Nat.add_sub_cancel]
    have log2Eq :
        ((2 ^ 52 + value.unsignedBits % 2 ^ 52) * 2 ^ exponent).log2 = 52 + exponent := by
      rw [Nat.log2_eq_iff (by positivity)]
      constructor
      · rw [pow_add]
        exact Nat.mul_le_mul_right _ (by omega)
      · rw [show 52 + exponent + 1 = 53 + exponent by omega, pow_add]
        exact Nat.mul_lt_mul_of_pos_right (by omega) (by positivity)
    rw [round_of_eq positive rfl (by rw [log2Eq]; omega)]
    omega

/-- The float nearest to `(-1) ^ negative * digits * 10 ^ exponent`, unless it
overflows. -/
def ofDecimal (negative : Bool) (decimal : Nat) (exponent : Int) : Option Double :=
  let bits :=
    round (decimal * 10 ^ exponent.toNat * 2 ^ bias) (10 ^ (-exponent).toNat)
  if bits < 2047 * 2 ^ 52 then
    some ⟨UInt64.ofNat (if negative then 2 ^ 63 + bits else bits)⟩
  else
    none

theorem isFinite_of_ofDecimal {negative : Bool} {decimal : Nat} {exponent : Int}
    {value : Double} (read : ofDecimal negative decimal exponent = some value) :
    value.isFinite = true := by
  simp only [ofDecimal] at read
  split at read
  · rename_i finite
    cases read
    cases negative
    · simp only [isFinite, unsignedBits, UInt64.toNat_ofNat', decide_eq_true_eq]
      simp only [Bool.false_eq_true, if_false]
      omega
    · simp only [isFinite, unsignedBits, UInt64.toNat_ofNat', decide_eq_true_eq]
      simp only [if_true]
      omega
  · cases read

/-- The exact decimal of a finite float is read back bit for bit. -/
theorem ofDecimal_magnitude (value : Double) (finite : value.isFinite = true) :
    ofDecimal value.negative (value.magnitude * 5 ^ bias) (-bias) = some value := by
  have bound : value.unsignedBits < 2047 * 2 ^ 52 := by
    simpa [isFinite] using finite
  have zeroExponent : (-(bias : Int)).toNat = 0 := by omega
  have fullExponent : (- -(bias : Int)).toNat = bias := by omega
  have scaled :
      value.magnitude * 5 ^ bias * 10 ^ (-(bias : Int)).toNat * 2 ^ bias =
        value.magnitude * 10 ^ bias := by
    rw [zeroExponent, pow_zero, mul_one, mul_assoc, ← mul_pow, show 5 * 2 = 10 from rfl]
  unfold ofDecimal
  simp only [scaled, fullExponent]
  rw [round_magnitude value (by positivity), if_pos bound]
  have total := value.bits.toNat_lt
  have restored :
      (if value.negative = true then 2 ^ 63 + value.unsignedBits else value.unsignedBits) =
        value.bits.toNat := by
    unfold negative unsignedBits
    by_cases sign : 2 ^ 63 ≤ value.bits.toNat
    · simp only [sign, decide_true, if_true]
      omega
    · simp only [sign, decide_false, Bool.false_eq_true, if_false]
      omega
  rw [restored, UInt64.ofNat_toNat]

end Double

/-! ## The number token -/

def parseFraction : Bytes → Option (Option Bytes × Bytes)
  | 0x2E :: rest =>
      if rest.takeWhile isDigit = [] then
        none
      else
        some (some (rest.takeWhile isDigit), rest.dropWhile isDigit)
  | text => some (none, text)

/-- The optional sign of an exponent. -/
def parseSign : Bytes → Bool × Bytes
  | 0x2D :: rest => (true, rest)
  | 0x2B :: rest => (false, rest)
  | text => (false, text)

def signed (negative : Bool) (value : Nat) : Int :=
  if negative then -value else value

def parseExponent : Bytes → Option (Option Int × Bytes)
  | octet :: rest =>
      if octet = 0x65 ∨ octet = 0x45 then
        let (negative, unsigned) := parseSign rest
        let power := ofDigits (unsigned.takeWhile isDigit)
        if unsigned.takeWhile isDigit = [] then
          none
        else
          some (some (signed negative power), unsigned.dropWhile isDigit)
      else
        some (none, octet :: rest)
  | [] => some (none, [])

/-- The value of a number token.  Integers outside 64 bits become floats. -/
def numberValue (negative : Bool) (whole : Bytes) :
    Option Bytes → Option Int → Option Json
  | none, none =>
      if -2 ^ 63 ≤ signed negative (ofDigits whole) ∧
          signed negative (ofDigits whole) < 2 ^ 64 then
        some (.int (signed negative (ofDigits whole)))
      else
        (Double.ofDecimal negative (ofDigits whole) 0).map .float
  | fraction, exponent =>
      (Double.ofDecimal negative (ofDigits (whole ++ fraction.getD []))
        (exponent.getD 0 - (fraction.getD []).length)).map .float

def parseUnsigned (negative : Bool) (text : Bytes) : Option (Json × Bytes) := do
  let whole := text.takeWhile isDigit
  if whole = [] ∨ noLeadingZero whole = false then
    none
  let (fraction, text) ← parseFraction (text.dropWhile isDigit)
  let (exponent, text) ← parseExponent text
  let value ← numberValue negative whole fraction exponent
  return (value, text)

def parseNumber : Bytes → Option (Json × Bytes)
  | 0x2D :: rest => parseUnsigned true rest
  | text => parseUnsigned false text

def printInt (value : Int) : Bytes :=
  if value < 0 then 0x2D :: digits value.natAbs else digits value.natAbs

/-- The exact decimal of a finite float. -/
def printDouble (value : Double) : Bytes :=
  (if value.negative then [0x2D] else []) ++
    (digits (value.magnitude * 5 ^ Double.bias) ++ (0x65 :: 0x2D :: digits Double.bias))

/-- The text after a number does not continue it. -/
def EndsNumber (rest : Bytes) : Prop :=
  ∀ octet ∈ rest.head?, isDigit octet = false ∧ octet ≠ 0x2E ∧ octet ≠ 0x65 ∧ octet ≠ 0x45

private theorem takeWhile_digits_append (value : Nat) {rest : Bytes}
    (stop : ∀ octet ∈ rest.head?, isDigit octet = false) :
    (digits value ++ rest).takeWhile isDigit = digits value ∧
      (digits value ++ rest).dropWhile isDigit = rest := by
  have allDigits : ∀ octet ∈ digits value, isDigit octet = true :=
    fun _ member => isDigit_of_mem_digits member
  rw [List.takeWhile_append_of_pos allDigits, List.dropWhile_append_of_pos allDigits]
  cases rest with
  | nil =>
      simp
  | cons octet rest =>
      have notDigit : isDigit octet = false := stop octet rfl
      simp [notDigit]

private theorem parseUnsigned_digits {negative : Bool} {value : Nat} {rest : Bytes}
    (stop : ∀ octet ∈ rest.head?, isDigit octet = false) :
    parseUnsigned negative (digits value ++ rest) = (do
      let (fraction, text) ← parseFraction rest
      let (exponent, text) ← parseExponent text
      let value ← numberValue negative (digits value) fraction exponent
      return (value, text)) := by
  obtain ⟨taken, dropped⟩ := takeWhile_digits_append value stop
  unfold parseUnsigned
  simp only [taken, dropped, digits_ne_nil, noLeadingZero_digits]
  simp

private theorem parseFraction_of_ne {octet : UInt8} {rest : Bytes} (other : octet ≠ 0x2E) :
    parseFraction (octet :: rest) = some (none, octet :: rest) := by
  unfold parseFraction
  split
  · rename_i shape
    exact absurd (List.cons.inj shape).1 other
  · rfl

private theorem parseExponent_of_ends {rest : Bytes} (ends : EndsNumber rest) :
    parseFraction rest = some (none, rest) ∧ parseExponent rest = some (none, rest) := by
  cases rest with
  | nil =>
      exact ⟨rfl, rfl⟩
  | cons octet rest =>
      obtain ⟨-, notPoint, notLower, notUpper⟩ := ends octet rfl
      refine ⟨parseFraction_of_ne notPoint, ?_⟩
      simp [parseExponent, notLower, notUpper]

@[simp]
theorem parseNumber_minus (text : Bytes) :
    parseNumber (0x2D :: text) = parseUnsigned true text :=
  rfl

private theorem parseNumber_digits (value : Nat) (rest : Bytes) :
    parseNumber (digits value ++ rest) = parseUnsigned false (digits value ++ rest) := by
  unfold parseNumber
  split
  · rename_i tail shape
    cases digitsEq : digits value with
    | nil =>
        exact absurd digitsEq (digits_ne_nil value)
    | cons octet others =>
        have isOne : isDigit octet = true :=
          isDigit_of_mem_digits (digitsEq ▸ List.mem_cons_self)
        rw [digitsEq, List.cons_append] at shape
        rw [(List.cons.inj shape).1] at isOne
        exact absurd isOne (by decide)
  · rfl

theorem parseNumber_printInt {value : Int} {rest : Bytes}
    (range : -2 ^ 63 ≤ value ∧ value < 2 ^ 64) (ends : EndsNumber rest) :
    parseNumber (printInt value ++ rest) = some (.int value, rest) := by
  obtain ⟨fraction, exponent⟩ := parseExponent_of_ends ends
  have stop : ∀ octet ∈ rest.head?, isDigit octet = false :=
    fun octet member => (ends octet member).1
  unfold printInt
  by_cases sign : value < 0
  · have signedValue : -((value.natAbs : Nat) : Int) = value := by omega
    rw [if_pos sign, List.cons_append]
    rw [parseNumber_minus, parseUnsigned_digits stop, fraction]
    simp only [Option.bind_eq_bind, Option.bind_some, exponent, numberValue,
      ofDigits_digits, signed, if_true, signedValue]
    rw [if_pos range]
    rfl
  · have unsignedValue : ((value.natAbs : Nat) : Int) = value := by omega
    rw [if_neg sign, parseNumber_digits, parseUnsigned_digits stop, fraction]
    simp only [Option.bind_eq_bind, Option.bind_some, exponent, numberValue,
      ofDigits_digits, signed, Bool.false_eq_true, if_false, unsignedValue]
    rw [if_pos range]
    rfl

/-- A significand with a negative exponent is read as the decimal it denotes. -/
private theorem parseUnsigned_decimal {negative : Bool} {significand power : Nat}
    {value : Double} {rest : Bytes}
    (read : Double.ofDecimal negative significand (-power) = some value)
    (ends : EndsNumber rest) :
    parseUnsigned negative
        (digits significand ++ (0x65 :: 0x2D :: (digits power ++ rest))) =
      some (.float value, rest) := by
  have stop : ∀ octet ∈ rest.head?, isDigit octet = false :=
    fun octet member => (ends octet member).1
  obtain ⟨taken, dropped⟩ := takeWhile_digits_append power stop
  have exponent :
      parseExponent (0x65 :: 0x2D :: (digits power ++ rest)) =
        some (some (-(power : Int)), rest) := by
    simp [parseExponent, parseSign, taken, dropped, digits_ne_nil, signed]
  have fraction :
      parseFraction (0x65 :: 0x2D :: (digits power ++ rest)) =
        some (none, 0x65 :: 0x2D :: (digits power ++ rest)) :=
    parseFraction_of_ne (by decide)
  have number :
      numberValue negative (digits significand) none (some (-(power : Int))) =
        some (.float value) := by
    unfold numberValue
    simp only [Option.getD_none, Option.getD_some, List.append_nil, ofDigits_digits,
      List.length_nil, Nat.cast_zero, sub_zero, read, Option.map_some]
  have marker : ∀ octet ∈ (0x65 :: 0x2D :: (digits power ++ rest)).head?,
      isDigit octet = false := by
    intro octet member
    rw [List.head?_cons, Option.mem_some_iff] at member
    rw [← member]
    decide
  rw [parseUnsigned_digits marker]
  refine Option.bind_eq_some_iff.mpr ⟨_, fraction, ?_⟩
  refine Option.bind_eq_some_iff.mpr ⟨_, exponent, ?_⟩
  exact Option.bind_eq_some_iff.mpr ⟨_, number, rfl⟩

theorem parseNumber_printDouble {value : Double} {rest : Bytes}
    (finite : value.isFinite = true) (ends : EndsNumber rest) :
    parseNumber (printDouble value ++ rest) = some (.float value, rest) := by
  have decimal : ∀ negative, value.negative = negative →
      parseUnsigned negative
          (digits (value.magnitude * 5 ^ Double.bias) ++
            (0x65 :: 0x2D :: (digits Double.bias ++ rest))) =
        some (.float value, rest) := by
    rintro negative rfl
    exact parseUnsigned_decimal (Double.ofDecimal_magnitude value finite) ends
  have shape : printDouble value ++ rest =
      (if value.negative then [0x2D] else []) ++
        (digits (value.magnitude * 5 ^ Double.bias) ++
          (0x65 :: 0x2D :: (digits Double.bias ++ rest))) := by
    simp [printDouble]
  rw [shape]
  by_cases sign : value.negative = true
  · rw [if_pos sign, List.singleton_append, parseNumber_minus]
    exact decimal true sign
  · rw [if_neg sign, List.nil_append, parseNumber_digits]
    exact decimal false (by simpa using sign)

/-! ## What a number token can produce -/

private theorem float_sound {negative : Bool} {decimal : Nat} {exponent : Int}
    {document : Json}
    (read : (Double.ofDecimal negative decimal exponent).map Json.float = some document) :
    document.WellFormed ∧ document.ValidUtf8 ∧ document.Finite := by
  obtain ⟨double, readEq, rfl⟩ := Option.map_eq_some_iff.mp read
  exact ⟨trivial, trivial, Double.isFinite_of_ofDecimal readEq⟩

theorem numberValue_sound {negative : Bool} {whole : Bytes} {fraction : Option Bytes}
    {exponent : Option Int} {document : Json}
    (value : numberValue negative whole fraction exponent = some document) :
    document.WellFormed ∧ document.ValidUtf8 ∧ document.Finite := by
  unfold numberValue at value
  split at value
  · split at value
    · rename_i range
      cases value
      exact ⟨range, trivial, trivial⟩
    · exact float_sound value
  · exact float_sound value

theorem parseNumber_sound {text rest : Bytes} {document : Json}
    (parsed : parseNumber text = some (document, rest)) :
    document.WellFormed ∧ document.ValidUtf8 ∧ document.Finite := by
  have unsigned : ∀ {negative : Bool} {text : Bytes},
      parseUnsigned negative text = some (document, rest) →
        document.WellFormed ∧ document.ValidUtf8 ∧ document.Finite := by
    intro negative text parsed
    unfold parseUnsigned at parsed
    simp only [Option.bind_eq_bind] at parsed
    split at parsed
    · cases parsed
    · simp only [Option.pure_def] at parsed
      obtain ⟨⟨fraction, afterFraction⟩, -, parsed⟩ := Option.bind_eq_some_iff.mp parsed
      obtain ⟨⟨exponent, afterExponent⟩, -, parsed⟩ := Option.bind_eq_some_iff.mp parsed
      obtain ⟨value, valueEq, parsed⟩ := Option.bind_eq_some_iff.mp parsed
      cases parsed
      exact numberValue_sound valueEq
  unfold parseNumber at parsed
  split at parsed
  · exact unsigned parsed
  · exact unsigned parsed

theorem ne_zero_of_mem_printInt {value : Int} {octet : UInt8}
    (member : octet ∈ printInt value) : octet ≠ 0 := by
  have digit : octet ∈ digits value.natAbs → octet ≠ 0 := by
    rintro inDigits rfl
    exact absurd (isDigit_of_mem_digits inDigits) (by decide)
  unfold printInt at member
  split at member
  · rcases List.mem_cons.mp member with sign | inDigits
    · rw [sign]
      decide
    · exact digit inDigits
  · exact digit member

theorem ne_zero_of_mem_printDouble {value : Double} {octet : UInt8}
    (member : octet ∈ printDouble value) : octet ≠ 0 := by
  have digit : ∀ {number : Nat}, octet ∈ digits number → octet ≠ 0 := by
    rintro number inDigits rfl
    exact absurd (isDigit_of_mem_digits inDigits) (by decide)
  unfold printDouble at member
  rcases List.mem_append.mp member with sign | unsigned
  · split at sign
    · rw [List.mem_singleton.mp sign]
      decide
    · cases sign
  · rcases List.mem_append.mp unsigned with inDigits | exponent
    · exact digit inDigits
    · rcases List.mem_cons.mp exponent with marker | unmarked
      · rw [marker]
        decide
      · rcases List.mem_cons.mp unmarked with minus | inDigits
        · rw [minus]
          decide
        · exact digit inDigits

end Ccmqsrv.Foundations
