import ExpressionLanguage.Decimal.Shortest

namespace ExpressionLanguage.Numeral

inductive FloatClass where
  | notANumber
  | infinite (negative : Bool)
  | finite (negative : Bool) (mantissa : Nat) (exponent : Int)
deriving DecidableEq, Repr

def FloatClass.ofBits (bits : Nat) : FloatClass :=
  let negative := bits / Nat.pow 2 63 == 1
  let biased : Nat := bits / Nat.pow 2 52 % Nat.pow 2 11
  let fraction := bits % Nat.pow 2 52
  if biased = 2047 then
    if fraction = 0 then .infinite negative else .notANumber
  else if biased = 0 then .finite negative fraction (-1074)
  else .finite negative (Nat.pow 2 52 + fraction) ((biased : Int) - 1075)

def signed (negative : Bool) (unsigned : List Char) : List Char :=
  if negative then '-' :: unsigned else unsigned

def FloatClass.text : FloatClass → List Char
  | .notANumber => ['N', 'a', 'N']
  | .infinite negative => signed negative ['i', 'n', 'f']
  | .finite negative mantissa exponent =>
      signed negative
        (if mantissa = 0 then ['0'] else (Decimal.shortest mantissa exponent).positional)

def floatText (x : Float) : String :=
  String.ofList (FloatClass.ofBits x.toBits.toNat).text

def notANumber : Float := Float.ofBits 0x7FF8000000000000

def readUnsignedFloat? (text : List Char) : Option Float :=
  let name := text.map Char.toLower
  if name = ['i', 'n', 'f'] ∨ name = ['i', 'n', 'f', 'i', 'n', 'i', 't', 'y'] then
    some Decimal.infinity
  else if name = ['n', 'a', 'n'] then some notANumber
  else (Decimal.read? text).map Decimal.toFloat

def readFloat? : List Char → Option Float
  | '-' :: rest => (readUnsignedFloat? rest).map Float.neg
  | '+' :: rest => readUnsignedFloat? rest
  | text => readUnsignedFloat? text

end ExpressionLanguage.Numeral
