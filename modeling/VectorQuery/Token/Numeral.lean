/-! Numerals: an optional minus sign, an integer part without leading zeros, and an
optional fraction and exponent. Each part takes as much as it can; a point, an `e`
or a sign that no digit follows is left alone. -/
namespace VectorQuery.Numeral

def startsWithDigit (text : List Char) : Bool :=
  text.head?.any Char.isDigit

/-- A digit, or a minus sign before a digit, starts a numeral. -/
def starts : List Char → Bool
  | '-' :: rest => startsWithDigit rest
  | text => startsWithDigit text

def sign : List Char → List Char × List Char
  | '-' :: rest => (['-'], rest)
  | text => ([], text)

/-- A zero ends the integer part. -/
def whole : List Char → List Char × List Char
  | '0' :: rest => (['0'], rest)
  | text => (text.takeWhile Char.isDigit, text.dropWhile Char.isDigit)

def fraction : List Char → List Char × List Char
  | '.' :: rest =>
    if startsWithDigit rest then
      ('.' :: rest.takeWhile Char.isDigit, rest.dropWhile Char.isDigit)
    else ([], '.' :: rest)
  | text => ([], text)

def exponentSign : List Char → List Char × List Char
  | '+' :: rest => (['+'], rest)
  | '-' :: rest => (['-'], rest)
  | text => ([], text)

def exponent : List Char → List Char × List Char
  | [] => ([], [])
  | mark :: rest =>
    let signed := exponentSign rest
    if (mark = 'e' ∨ mark = 'E') ∧ startsWithDigit signed.2 then
      (mark :: signed.1 ++ signed.2.takeWhile Char.isDigit, signed.2.dropWhile Char.isDigit)
    else ([], mark :: rest)

structure Scanned where
  spelling : List Char
  isFloat : Bool
  rest : List Char
deriving DecidableEq, Repr

/-- Takes the longest numeral off a text that starts with one. A fraction or an
exponent makes it a float. -/
def scan (text : List Char) : Scanned :=
  let (minus, text) := sign text
  let (digits, text) := whole text
  let (places, text) := fraction text
  let (power, text) := exponent text
  ⟨minus ++ digits ++ places ++ power, !places.isEmpty || !power.isEmpty, text⟩

end VectorQuery.Numeral
