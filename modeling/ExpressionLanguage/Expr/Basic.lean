import ExpressionLanguage.Token.Basic
import ExpressionLanguage.Value

namespace ExpressionLanguage

inductive Expr where
  | literal (value : Value)
  | group (inner : Expr)
  | unary (operator : Token) (operand : Expr)
  | binary (left : Expr) (operator : Token) (right : Expr)
deriving BEq, Repr

namespace Expr

def render : Expr → String
  | literal value => value.display
  | group inner => "(" ++ inner.render ++ ")"
  | unary operator operand => "(" ++ operator.lexeme ++ operand.render ++ ")"
  | binary left operator right =>
      "(" ++ left.render ++ " " ++ operator.lexeme ++ " " ++ right.render ++ ")"

def depth : Expr → Nat
  | literal _ => 1
  | group inner => 1 + inner.depth
  | unary _ operand => 1 + operand.depth
  | binary left _ right => 1 + max left.depth right.depth

end Expr

end ExpressionLanguage
