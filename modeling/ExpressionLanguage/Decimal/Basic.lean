import ExpressionLanguage.Numeral.Integer

namespace ExpressionLanguage

/-- The number `coefficient · 10 ^ exponent`. -/
structure Decimal where
  coefficient : Nat
  exponent : Int
deriving DecidableEq, Repr

namespace Decimal

def positional (d : Decimal) : List Char :=
  let ds := Numeral.digits d.coefficient
  let places := d.exponent.natAbs
  if 0 ≤ d.exponent then ds ++ List.replicate places '0'
  else if places < ds.length then
    ds.take (ds.length - places) ++ '.' :: ds.drop (ds.length - places)
  else '0' :: '.' :: (List.replicate (places - ds.length) '0' ++ ds)

def readExponent? : List Char → Option Int
  | [] => some 0
  | mark :: rest =>
      if mark = 'e' ∨ mark = 'E' then
        match rest with
        | '-' :: ds => (unsigned? ds).map fun n : Nat => -(n : Int)
        | '+' :: ds => (unsigned? ds).map fun n : Nat => (n : Int)
        | ds => (unsigned? ds).map fun n : Nat => (n : Int)
      else none
where
  unsigned? (ds : List Char) : Option Nat :=
    if ds ≠ [] ∧ ds.all Char.isDigit then some (Numeral.denoted ds) else none

def spanDigits (text : List Char) : List Char × List Char :=
  (text.takeWhile Char.isDigit, text.dropWhile Char.isDigit)

def spanFraction : List Char → List Char × List Char
  | '.' :: rest => spanDigits rest
  | rest => ([], rest)

def read? (text : List Char) : Option Decimal :=
  let (whole, afterWhole) := spanDigits text
  let (fraction, afterFraction) := spanFraction afterWhole
  if whole = [] ∧ fraction = [] then none
  else (readExponent? afterFraction).map fun e =>
    ⟨Numeral.denoted (whole ++ fraction), e - fraction.length⟩

def infinity : Float := Float.ofBits 0x7FF0000000000000

/-- The nearest float, ties to even; a decimal beyond the greatest float is infinite. -/
def toFloat (d : Decimal) : Float :=
  Float.ofScientific d.coefficient (d.exponent < 0) d.exponent.natAbs

end Decimal

end ExpressionLanguage
