import ExpressionLanguage.Decimal.Basic

/-!
The shortest decimal that reads back as a given binary float. A positive float is the centre of an
interval of reals that all round to it. On the grid of the multiples of a power of ten only the two
neighbours of the float need a look: if any point of the grid lies in the interval, one of them
does. The coarsest grid with such a point gives the fewest digits.
-/

namespace ExpressionLanguage.Decimal

structure Interval where
  low : Nat
  centre : Nat
  high : Nat
  denominator : Nat
  closed : Bool

/-- The reals that round to `mantissa · 2 ^ exponent`. They reach half way to the next floats; the
one below a power of two is half as far away as the one above it. Ties go to the even mantissa. -/
def Interval.ofBinary (mantissa : Nat) (exponent : Int) : Interval :=
  let below := if mantissa = Nat.pow 2 52 ∧ -1074 < exponent then 1 else 2
  let scale := Nat.pow 2 (exponent - 2).toNat
  { low := (4 * mantissa - below) * scale
    centre := 4 * mantissa * scale
    high := (4 * mantissa + 2) * scale
    denominator := Nat.pow 2 (2 - exponent).toNat
    closed := mantissa % 2 == 0 }

def Interval.inUnits (i : Interval) (place : Int) : Interval :=
  let up := Nat.pow 10 (-place).toNat
  { i with
    low := i.low * up
    centre := i.centre * up
    high := i.high * up
    denominator := i.denominator * Nat.pow 10 place.toNat }

def Interval.holds (i : Interval) (n : Nat) : Bool :=
  let scaled := n * i.denominator
  if i.closed then i.low ≤ scaled && scaled ≤ i.high else i.low < scaled && scaled < i.high

def Interval.nearest? (i : Interval) : Option Nat :=
  let floor := i.centre / i.denominator
  match i.holds floor, i.holds (floor + 1) with
  | true, true => some (if 2 * i.centre < (2 * floor + 1) * i.denominator then floor else floor + 1)
  | true, false => some floor
  | false, true => some (floor + 1)
  | false, false => none

def Interval.topPlace (i : Interval) : Int :=
  if i.denominator ≤ i.centre then (Numeral.digits (i.centre / i.denominator)).length
  else 1 - ((Numeral.digits (i.denominator / i.centre)).length : Int)

def placesFrom (top : Int) : List Int :=
  (List.range 19).map fun (step : Nat) => top - (step : Int)

def shortest (mantissa : Nat) (exponent : Int) : Decimal :=
  let interval := Interval.ofBinary mantissa exponent
  let onGrid (place : Int) : Option Decimal :=
    (interval.inUnits place).nearest?.map fun n => ⟨n, place⟩
  ((placesFrom interval.topPlace).findSome? onGrid).getD ⟨0, 0⟩

end ExpressionLanguage.Decimal
