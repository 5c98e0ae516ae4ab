import ExpressionLanguage.Proofs.Grammar.Derivation

namespace ExpressionLanguage

namespace Derives

variable {v w : List Token} {e left right : Expr} {tier : Tier} {ops : List Symbol} {level : Level}

theorem operand_of_unary (h : Derives .unary w e) (hrule : Rule tier ops level) :
    Derives level w e := by
  cases hrule with
  | factor => exact h
  | term => exact .operand .factor h
  | comparison => exact .operand .term (.operand .factor h)
  | equality => exact .operand .comparison (.operand .term (.operand .factor h))

theorem expression_of_binary (h : Derives (.binary tier) w e) : Derives .expression w e := by
  cases tier with
  | factor => exact .operand .equality (.operand .comparison (.operand .term h))
  | term => exact .operand .equality (.operand .comparison h)
  | comparison => exact .operand .equality h
  | equality => exact h

theorem expression_of_unary (h : Derives .unary w e) : Derives .expression w e :=
  .operand .equality (h.operand_of_unary .equality)

theorem binary_of_unary {op : Token} {s : Symbol} (hleft : Derives .unary v left)
    (hs : s ∈ Level.binaryOperators) (hop : op.kind = .symbol s) (hright : Derives .unary w right) :
    Derives .expression (v ++ op :: w) (.binary left op right) := by
  obtain ⟨tier, ops, level, hrule, hmem⟩ := Rule.exists_of_mem hs
  have hleft' := Derives.operand hrule (hleft.operand_of_unary hrule)
  exact (Derives.chain hrule hleft' hmem hop (hright.operand_of_unary hrule)).expression_of_binary

end Derives

end ExpressionLanguage
