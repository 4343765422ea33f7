import VectorQuery.Decimal

/-! Binary floating-point numbers of 64 bits. They are read, compared and written
but never computed with, so a finite one is kept as its exact value. Reading rounds
to nearest with ties to even; writing chooses the fewest digits that read back. -/
namespace VectorQuery

/-- A significand has 53 bits, and fewer only with the least exponent. -/
abbrev Canonical (significand exponent : Nat) : Prop :=
  significand < Nat.pow 2 53 ∧ exponent ≤ 2045 ∧ (Nat.pow 2 52 ≤ significand ∨ exponent = 0)

/-- The magnitude `significand * 2 ^ (exponent - 1074)`, in the one form that its size
allows. -/
structure Magnitude where
  significand : Nat
  exponent : Nat
  canonical : Canonical significand exponent
deriving DecidableEq, Repr

inductive Binary64 where
  | finite (negative : Bool) (magnitude : Magnitude)
  | infinite (negative : Bool)
  | nan
deriving DecidableEq, Repr

namespace Magnitude

def zero : Magnitude := ⟨0, 0, by decide⟩

/-- One, counted in the smallest magnitude. -/
def scale : Nat := Nat.pow 2 1074

/-- The integer nearest to a quotient, the even one of two. -/
def nearest (numerator denominator : Nat) : Nat :=
  let quotient := numerator / denominator
  let double := 2 * (numerator % denominator)
  if double < denominator ∨ double = denominator ∧ quotient % 2 = 0 then quotient
  else quotient + 1

def make? (significand exponent : Nat) : Option Magnitude :=
  if fits : Canonical significand exponent then
    some ⟨significand, exponent, fits⟩
  else none

/-- The magnitude nearest to a positive quotient, absent above the largest one. -/
def ofRatio? (numerator denominator : Nat) : Option Magnitude :=
  let scaled := numerator * scale
  let exponent := (scaled / denominator).log2 - 52
  let significand := nearest scaled (denominator * Nat.pow 2 exponent)
  if significand < Nat.pow 2 53 then make? significand exponent else make? (Nat.pow 2 52) (exponent + 1)

/-- The magnitude nearest to a decimal. Its width alone decides about decimals far
outside the range. -/
def ofDecimal? (decimal : Decimal) : Option Magnitude :=
  if decimal.significand = 0 ∨ decimal.width < -324 then some zero
  else if 309 < decimal.width then none
  else ofRatio? decimal.ratio.1 decimal.ratio.2

/-- Numerator and denominator of the exact value. -/
def ratio (magnitude : Magnitude) : Nat × Nat :=
  (magnitude.significand * Nat.pow 2 magnitude.exponent, scale)

def exact (magnitude : Magnitude) : Decimal :=
  if 1074 ≤ magnitude.exponent then
    ⟨magnitude.significand * Nat.pow 2 (magnitude.exponent - 1074), 0⟩
  else
    ⟨magnitude.significand * Nat.pow 5 (1074 - magnitude.exponent), (magnitude.exponent : Int) - 1074⟩

end Magnitude

/-- Which of two equally near decimals is written. -/
inductive Tie where
  | even
  | away
deriving DecidableEq, Repr

namespace Magnitude

/-- The exponent of the leading decimal digit of a positive quotient. -/
def leading (numerator denominator : Nat) : Int :=
  if denominator ≤ numerator then ((Decimal.digits (numerator / denominator)).length : Int) - 1
  else -((Decimal.digits ((denominator + numerator - 1) / numerator - 1)).length : Int)

/-- The neighbours of the exact value among the multiples of `10 ^ exponent`, the
nearer one first. -/
def neighbours (tie : Tie) (magnitude : Magnitude) (exponent : Int) : List Decimal :=
  let (numerator, denominator) : Nat × Nat := match exponent with
    | .ofNat power => (magnitude.ratio.1, magnitude.ratio.2 * Nat.pow 10 power)
    | .negSucc power => (magnitude.ratio.1 * Nat.pow 10 (power + 1), magnitude.ratio.2)
  let below := numerator / denominator
  let double := 2 * (numerator % denominator)
  let belowFirst := double < denominator ∨
    double = denominator ∧ tie = .even ∧ below % 2 = 0
  (if belowFirst then [below, below + 1] else [below + 1, below]).map fun significand =>
    Decimal.trimmed 17 ⟨significand, exponent⟩

/-- The decimal of fewest digits that reads back, the nearest of those. The exact
value stands by where seventeen digits do not suffice. -/
def shortest (tie : Tie) (magnitude : Magnitude) : Decimal :=
  if magnitude.significand = 0 then ⟨0, 0⟩
  else
    let lead := leading magnitude.ratio.1 magnitude.ratio.2
    ((List.range 17).findSome? fun (further : Nat) =>
      (neighbours tie magnitude (lead - further)).find? fun decimal =>
        ofDecimal? decimal = some magnitude).getD magnitude.exact

end Magnitude

namespace Binary64

def zero : Binary64 := .finite false .zero

def isFinite : Binary64 → Bool
  | .finite _ _ => true
  | _ => false

def ofDecimal (negative : Bool) (decimal : Decimal) : Binary64 :=
  match Magnitude.ofDecimal? decimal with
  | some magnitude => .finite negative magnitude
  | none => .infinite negative

/-- Reads an optional sign and a numeral. -/
def read? : List Char → Option Binary64
  | '-' :: text => (Decimal.read? text).map (ofDecimal true)
  | '+' :: text => (Decimal.read? text).map (ofDecimal false)
  | text => (Decimal.read? text).map (ofDecimal false)

/-- Equality of numbers: both zeros are equal, and no NaN equals anything. -/
def equal : Binary64 → Binary64 → Bool
  | .finite negative left, .finite negative' right =>
    left == right && (negative == negative' || left.significand == 0)
  | .infinite negative, .infinite negative' => negative == negative'
  | _, _ => false

instance : BEq Binary64 := ⟨equal⟩

/-- How a finite number is laid out: the decimal exponents that are written
without an exponent, and the choice between equally near decimals. -/
structure Layout where
  positional : Int → Bool
  tie : Tie

/-- Every number is positional. -/
def plain : Layout := ⟨fun _ => true, .away⟩

/-- Positional from `0.00001` up to below `10 ^ 16`, scientific elsewhere. -/
def compact : Layout := ⟨fun exponent => -5 ≤ exponent && exponent < 16, .even⟩

def Layout.write (layout : Layout) (number : Binary64) : List Char :=
  match number with
  | .finite negative magnitude =>
    let decimal := magnitude.shortest layout.tie
    let text := if layout.positional (decimal.width - 1) then decimal.positional
      else decimal.scientific
    if negative then '-' :: text else text
  | .infinite negative => if negative then "-inf".toList else "inf".toList
  | .nan => "NaN".toList

/-! Where the layouts change, and where a tie decides. -/

example : compact.write (ofDecimal false ⟨1, 15⟩) = "1000000000000000.0".toList := by decide +kernel

example : compact.write (ofDecimal false ⟨1, 16⟩) = "1e+16".toList := by decide +kernel

example : compact.write (ofDecimal true ⟨1, -5⟩) = "-0.00001".toList := by decide +kernel

example : compact.write (ofDecimal false ⟨15, -7⟩) = "1.5e-6".toList := by decide +kernel

example : compact.write (ofDecimal true ⟨0, 0⟩) = "-0.0".toList := by decide +kernel

example : plain.write (ofDecimal false ⟨1, 16⟩) = "10000000000000000.0".toList := by decide +kernel

example : plain.write (ofDecimal false ⟨1, 309⟩) = "inf".toList := by decide +kernel

example : compact.write (ofDecimal false ⟨112589990684262425, -2⟩) = "1125899906842624.2".toList := by
  decide +kernel

example : plain.write (ofDecimal false ⟨112589990684262425, -2⟩) = "1125899906842624.3".toList := by
  decide +kernel

end Binary64

end VectorQuery
