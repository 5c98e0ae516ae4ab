import ExpressionLanguage.Token.Kind
import ExpressionLanguage.Numeral.Integer

namespace ExpressionLanguage

structure Token where
  kind : Kind
  lexeme : String
  line : Nat
deriving DecidableEq, Repr

namespace Token

def fixed (kind : Kind) (line : Nat) : Token :=
  ⟨kind, kind.lexeme?.getD "", line⟩

def display (t : Token) : String :=
  t.kind.name ++ " '" ++ t.lexeme ++ "' (line " ++ Numeral.text t.line ++ ")"

end Token

end ExpressionLanguage
