import ExpressionLanguage.Token.Kind

/-!
The levels of the expression grammar. Each tier of binary operators is a chain of operands of the
next tighter level:

    equality   := comparison (("==" | "!=") comparison)*
    comparison := term ((">" | ">=" | "<" | "<=") term)*
    term       := factor (("+" | "-") factor)*
    factor     := unary (("*" | "/") unary)*
    unary      := ("-" | "!") unary | primary
    primary    := literal | "(" equality ")"
-/

namespace ExpressionLanguage

inductive Tier where
  | equality | comparison | term | factor
deriving DecidableEq, Repr

inductive Level where
  | binary (tier : Tier)
  | unary
  | primary
deriving DecidableEq, Repr

namespace Tier

def operators : Tier → List Symbol
  | equality => [.doubleEqual, .bangEqual]
  | comparison => [.greater, .greaterEqual, .less, .lessEqual]
  | term => [.plus, .minus]
  | factor => [.star, .slash]

def operand : Tier → Level
  | equality => .binary comparison
  | comparison => .binary term
  | term => .binary factor
  | factor => .unary

end Tier

namespace Level

def expression : Level :=
  binary .equality

def unaryOperators : List Symbol :=
  [.minus, .bang]

def rank : Level → Nat
  | primary => 0
  | unary => 1
  | binary .factor => 2
  | binary .term => 3
  | binary .comparison => 4
  | binary .equality => 5

theorem rank_operand (tier : Tier) : tier.operand.rank < (binary tier).rank := by
  cases tier <;> decide

end Level

end ExpressionLanguage
