import ExpressionLanguage.Numeral.Float

namespace ExpressionLanguage

/-- Two values are equal if they have the same type and content; floats compare by number, so a NaN
differs from itself and the two zeros are equal. -/
inductive Value where
  | string (text : String)
  | integer (n : Int64)
  | float (x : Float)
  | boolean (b : Bool)
  | null
deriving BEq, Repr

inductive ValueType where
  | string | integer | float | boolean | null
deriving DecidableEq, Repr

def ValueType.all : List ValueType :=
  [.string, .integer, .float, .boolean, .null]

def ValueType.name : ValueType → String
  | .string => "string"
  | .integer => "integer"
  | .float => "float"
  | .boolean => "boolean"
  | .null => "null"

namespace Value

def type : Value → ValueType
  | string _ => .string
  | integer _ => .integer
  | float _ => .float
  | boolean _ => .boolean
  | null => .null

def display : Value → String
  | string text => text
  | integer n => Numeral.integerText n
  | float x => Numeral.floatText x
  | boolean true => "true"
  | boolean false => "false"
  | null => "null"

def number? : Value → Option Float
  | float x => some x
  | integer n => some (Float.ofInt n.toInt)
  | _ => none

end Value

end ExpressionLanguage
