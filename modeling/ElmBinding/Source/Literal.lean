/-!
# Integer literals

An integer literal is hexadecimal behind `0x`, octal behind another leading zero, and
decimal otherwise, with an optional minus sign.  Its magnitude is read with 127 bits: a
literal that does not fit, or whose digits do not belong to its base, counts as zero.
The number is then brought into the range of 64 bits with sign.

Main definitions:

- Definition {lit}`readDigits?`: the number written by digits in a base.
- Definition {lit}`magnitude`: the magnitude of an unsigned literal.
- Definition {lit}`integerValue`: the number of a literal.
-/

namespace ElmBinding
namespace Source

/-- The value of a digit, up to the letter `f` in both cases. -/
def digitValue? (c : Char) : Option Nat :=
  if c.isDigit then
    some (c.toNat - '0'.toNat)
  else if 'a' ≤ c && c ≤ 'f' then
    some (c.toNat - 'a'.toNat + 10)
  else if 'A' ≤ c && c ≤ 'F' then
    some (c.toNat - 'A'.toNat + 10)
  else
    none

/-- The value of a digit in a base. -/
def digitIn? (base : Nat) (c : Char) : Option Nat :=
  (digitValue? c).filter fun value => value < base

/-- The number written by digits in a base, after the digits of {lit}`high`. -/
def readDigitsFrom? (base high : Nat) : List Char → Option Nat
  | [] => some high
  | c :: rest => (digitIn? base c).bind fun value => readDigitsFrom? base (high * base + value) rest

/-- The number written by digits in a base; none if a digit does not belong to the base. -/
def readDigits? (base : Nat) (digits : List Char) : Option Nat :=
  readDigitsFrom? base 0 digits

/-- The number written by an unsigned literal in the base that its beginning tells. -/
def unsigned? : List Char → Option Nat
  | '0' :: 'x' :: digits => readDigits? 16 digits
  | '0' :: 'X' :: digits => readDigits? 16 digits
  | '0' :: digit :: digits => readDigits? 8 (digit :: digits)
  | digits => readDigits? 10 digits

/-- The least magnitude that needs more than 127 bits. -/
def magnitudeLimit : Nat :=
  0x80000000000000000000000000000000

/-- The magnitude of an unsigned literal; one that cannot be read counts as zero. -/
def magnitude (literal : List Char) : Nat :=
  ((unsigned? literal).filter fun value => value < magnitudeLimit).getD 0

/-- The number of a literal before it is brought into range. -/
def signedValue : List Char → Int
  | '-' :: literal => -(magnitude literal : Int)
  | literal => magnitude literal

/-- The nearest number in the range of 64 bits with sign. -/
def clampToInt64 (value : Int) : Int :=
  max (-0x8000000000000000) (min value 0x7FFFFFFFFFFFFFFF)

/-- The number of an integer literal. -/
def integerValue (literal : List Char) : Int :=
  clampToInt64 (signedValue literal)

end Source
end ElmBinding
