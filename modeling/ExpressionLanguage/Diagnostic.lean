import ExpressionLanguage.Token.Basic
import ExpressionLanguage.Value

namespace ExpressionLanguage

def located (line : Nat) (text : String) : String :=
  "Error on line " ++ Numeral.text line ++ ": " ++ text

inductive ScanError where
  | unterminatedString (line : Nat)
  | unexpectedCharacter (character : Char) (line : Nat)
deriving DecidableEq, Repr

namespace ScanError

def line : ScanError → Nat
  | unterminatedString line => line
  | unexpectedCharacter _ line => line

def text : ScanError → String
  | unterminatedString _ => "unterminated string."
  | unexpectedCharacter c _ => "Unexpected token '" ++ String.singleton c ++ "'."

def message (e : ScanError) : String :=
  located e.line e.text

end ScanError

inductive ParseError where
  | unterminatedGroup (line : Nat)
  | expectedExpression (found : String) (line : Nat)
  | unexpectedTrailingToken (lexeme : String) (line : Nat)
  | literalTooLarge (lexeme : String) (line : Nat)
  | malformedLiteral (kind : Kind) (lexeme : String) (line : Nat)
deriving DecidableEq, Repr

namespace ParseError

def line : ParseError → Nat
  | unterminatedGroup line => line
  | expectedExpression _ line => line
  | unexpectedTrailingToken _ line => line
  | literalTooLarge _ line => line
  | malformedLiteral _ _ line => line

def isFatal : ParseError → Bool
  | unterminatedGroup _ => true
  | malformedLiteral _ _ _ => true
  | _ => false

def text : ParseError → String
  | unterminatedGroup _ => "Unterminated group expression, expected ')'."
  | expectedExpression found _ => "Literal expected, found " ++ found ++ "."
  | unexpectedTrailingToken lexeme _ => "Extra tokens after expression: " ++ lexeme ++ "."
  | literalTooLarge lexeme _ => "Literal " ++ lexeme ++ " is too large."
  | malformedLiteral kind lexeme _ =>
      "Cannot read '" ++ lexeme ++ "' as a " ++ kind.name ++ " literal."

def message (e : ParseError) : String :=
  located e.line e.text

end ParseError

inductive Side where
  | left | right
deriving DecidableEq, Repr

def Side.name : Side → String
  | .left => "left"
  | .right => "right"

inductive RuntimeError where
  | operandNotNumber (side : Side) (operator : String) (found : ValueType) (line : Nat)
  | invalidUnaryOperand (operator : String) (found : ValueType) (line : Nat)
  | unsupportedOperator (operator : String) (line : Nat)
  | overflow (line : Nat)
deriving DecidableEq, Repr

namespace RuntimeError

def line : RuntimeError → Nat
  | operandNotNumber _ _ _ line => line
  | invalidUnaryOperand _ _ line => line
  | unsupportedOperator _ line => line
  | overflow line => line

def text : RuntimeError → String
  | operandNotNumber side operator found _ =>
      side.name ++ " operand of '" ++ operator ++ "' is not a number (found " ++ found.name ++ ")."
  | invalidUnaryOperand operator found _ =>
      "Cannot evaluate unary '" ++ operator ++ "' on " ++ found.name ++ "."
  | unsupportedOperator operator _ => "Unsupported operator '" ++ operator ++ "'."
  | overflow _ => "Integer overflow while trying to compute result."

def message (e : RuntimeError) : String :=
  located e.line e.text

end RuntimeError

inductive Failure where
  | scan (errors : List ScanError)
  | parse (errors : List ParseError)
  | runtime (error : RuntimeError)
deriving DecidableEq, Repr

namespace Failure

def messages : Failure → List String
  | scan errors => errors.map ScanError.message
  | parse errors => errors.map ParseError.message
  | runtime error => [error.message]

def message (failure : Failure) : String :=
  "\n".intercalate failure.messages

end Failure

end ExpressionLanguage
