/-! Decimal magnitudes `significand * 10 ^ exponent`: their digits, how a numeral
is read as one, and the two ways one is laid out. Signs stay with the numbers
that carry them. -/
namespace VectorQuery

structure Decimal where
  significand : Nat
  exponent : Int
deriving DecidableEq, Repr

namespace Decimal

/-- The digits of a natural number, most significant first. -/
def digits (number : Nat) : List Char :=
  Nat.toDigits 10 number

def text (number : Nat) : String :=
  String.ofList (digits number)

def ofDigits (text : List Char) : Nat :=
  text.foldl (fun number digit => 10 * number + (digit.toNat - '0'.toNat)) 0

/-- Numerator and denominator of the magnitude. -/
def ratio (decimal : Decimal) : Nat × Nat :=
  match decimal.exponent with
  | .ofNat power => (decimal.significand * Nat.pow 10 power, 1)
  | .negSucc power => (decimal.significand, Nat.pow 10 (power + 1))

/-- The number of places before the decimal point, negative when zeros follow it. -/
def width (decimal : Decimal) : Int :=
  (digits decimal.significand).length + decimal.exponent

/-- Moves up to `count` trailing zeros of the significand into the exponent. -/
def trimmed : Nat → Decimal → Decimal
  | 0, decimal => decimal
  | count + 1, decimal =>
    if decimal.significand ≠ 0 ∧ decimal.significand % 10 = 0 then
      trimmed count ⟨decimal.significand / 10, decimal.exponent + 1⟩
    else decimal

/-- The exponent that ends a numeral, zero when the numeral has none. -/
def readExponent? : List Char → Option Int
  | [] => some 0
  | mark :: rest =>
    if mark = 'e' ∨ mark = 'E' then
      let (negative, power) : Bool × List Char := match rest with
        | '-' :: power => (true, power)
        | '+' :: power => (false, power)
        | power => (false, power)
      if power.isEmpty || !power.all Char.isDigit then none
      else some (if negative then -(ofDigits power : Int) else ofDigits power)
    else none

/-- Reads digits with an optional point and an optional exponent. At least one
digit stands before or after the point. -/
def read? (text : List Char) : Option Decimal :=
  let whole := text.takeWhile Char.isDigit
  let rest := text.dropWhile Char.isDigit
  let (fraction, rest) : List Char × List Char := match rest with
    | '.' :: tail => (tail.takeWhile Char.isDigit, tail.dropWhile Char.isDigit)
    | tail => ([], tail)
  if whole.isEmpty && fraction.isEmpty then none
  else (readExponent? rest).map fun exponent =>
    ⟨ofDigits (whole ++ fraction), exponent - fraction.length⟩

/-- Without an exponent, and with a digit on both sides of the point. -/
def positional (decimal : Decimal) : List Char :=
  let written := digits decimal.significand
  match decimal.exponent with
  | .ofNat power => written ++ List.replicate power '0' ++ ['.', '0']
  | .negSucc power =>
    if power + 1 < written.length then
      written.take (written.length - (power + 1)) ++
        '.' :: written.drop (written.length - (power + 1))
    else '0' :: '.' :: List.replicate (power + 1 - written.length) '0' ++ written

/-- One digit, the others after a point, and a signed exponent. -/
def scientific (decimal : Decimal) : List Char :=
  let exponent := decimal.width - 1
  let sign := if exponent < 0 then '-' else '+'
  let mark := 'e' :: sign :: digits exponent.natAbs
  match digits decimal.significand with
  | lead :: next :: rest => lead :: '.' :: next :: rest ++ mark
  | written => written ++ mark

end Decimal

/-- Reads an optional sign and digits as a 64-bit integer. -/
def readInteger? (text : List Char) : Option Int64 :=
  let (negative, digits) : Bool × List Char := match text with
    | '-' :: digits => (true, digits)
    | '+' :: digits => (false, digits)
    | digits => (false, digits)
  if digits.isEmpty || !digits.all Char.isDigit then none
  else
    let number : Int := if negative then -(Decimal.ofDigits digits : Int) else Decimal.ofDigits digits
    if Int64.minValue.toInt ≤ number ∧ number ≤ Int64.maxValue.toInt then some (Int64.ofInt number)
    else none

def writeInteger (number : Int64) : List Char :=
  if number.toInt < 0 then '-' :: Decimal.digits number.toInt.natAbs
  else Decimal.digits number.toInt.natAbs

end VectorQuery
