import ExpressionLanguage.Cursor
import ExpressionLanguage.Grammar.Level

/-!
Recursive descent over the levels of the grammar. No level leaves more tokens than it found, and
each step of a chain consumes an operator, so reading ends.
-/

namespace ExpressionLanguage

abbrev Reading (c : Cursor) := { o : Outcome // o.2.tokens.length ≤ c.tokens.length }

mutual

def readLevel (level : Level) (c : Cursor) : Reading c :=
  match level with
  | .primary =>
      match hopen : c.take? [.leftParen] with
      | none => ⟨c.atom, c.length_atom⟩
      | some (opening, inside) =>
          have hinside := Cursor.length_of_take? hopen
          match readLevel .expression inside with
          | ⟨(.error e, stopped), h⟩ => ⟨(.error e, stopped), Nat.le_trans h (Nat.le_of_lt hinside)⟩
          | ⟨(.ok inner, closing), h⟩ =>
              match hclose : closing.take? [.rightParen] with
              | none =>
                  ⟨(.error (.unterminatedGroup opening.line), closing),
                    Nat.le_trans h (Nat.le_of_lt hinside)⟩
              | some (_, after) =>
                  ⟨(.ok (.group inner), after),
                    Nat.le_trans (Nat.le_of_lt (Cursor.length_of_take? hclose))
                      (Nat.le_trans h (Nat.le_of_lt hinside))⟩
  | .unary =>
      match hop : c.take? Level.unaryOperators with
      | none => readLevel .primary c
      | some (operator, after) =>
          have hafter := Cursor.length_of_take? hop
          match readLevel .unary after with
          | ⟨(.error e, stopped), h⟩ => ⟨(.error e, stopped), Nat.le_trans h (Nat.le_of_lt hafter)⟩
          | ⟨(.ok operand, rest), h⟩ =>
              ⟨(.ok (.unary operator operand), rest), Nat.le_trans h (Nat.le_of_lt hafter)⟩
  | .binary tier =>
      match readLevel tier.operand c with
      | ⟨(.error e, stopped), h⟩ => ⟨(.error e, stopped), h⟩
      | ⟨(.ok left, rest), h⟩ =>
          ⟨(readChain tier left rest).1, Nat.le_trans (readChain tier left rest).2 h⟩
termination_by (c.tokens.length, level.rank + 1)
decreasing_by
  · exact Prod.Lex.left _ _ hinside
  · exact Prod.Lex.right _ (by decide)
  · exact Prod.Lex.left _ _ hafter
  · exact Prod.Lex.right _ (Nat.succ_lt_succ (Level.rank_operand tier))
  · rcases Nat.lt_or_eq_of_le h with hlt | heq
    · exact Prod.Lex.left _ _ hlt
    · rw [heq]
      exact Prod.Lex.right _ (Nat.succ_pos _)

def readChain (tier : Tier) (left : Expr) (c : Cursor) : Reading c :=
  match hop : c.take? tier.operators with
  | none => ⟨(.ok left, c), Nat.le_refl _⟩
  | some (operator, after) =>
      have hafter := Cursor.length_of_take? hop
      match readLevel tier.operand after with
      | ⟨(.error e, stopped), h⟩ => ⟨(.error e, stopped), Nat.le_trans h (Nat.le_of_lt hafter)⟩
      | ⟨(.ok right, rest), h⟩ =>
          have hrest := Nat.lt_of_le_of_lt h hafter
          ⟨(readChain tier (.binary left operator right) rest).1,
            Nat.le_trans (readChain tier (.binary left operator right) rest).2
              (Nat.le_of_lt hrest)⟩
termination_by (c.tokens.length, 0)
decreasing_by
  · exact Prod.Lex.left _ _ hafter
  · exact Prod.Lex.left _ _ hrest

end

def Level.parse (level : Level) (c : Cursor) : Outcome :=
  (readLevel level c).1

def Tier.chain (tier : Tier) (left : Expr) (c : Cursor) : Outcome :=
  (readChain tier left c).1

theorem Level.length_parse (level : Level) (c : Cursor) :
    (level.parse c).2.tokens.length ≤ c.tokens.length :=
  (readLevel level c).2

namespace Level

theorem parse_primary (c : Cursor) :
    primary.parse c =
      match c.take? [.leftParen] with
      | none => c.atom
      | some (opening, inside) =>
          (expression.parse inside).andThen fun inner closing =>
            match closing.take? [.rightParen] with
            | none => (.error (.unterminatedGroup opening.line), closing)
            | some (_, after) => (.ok (.group inner), after) := by
  rw [parse, readLevel]
  split
  · rename_i h
    simp [h]
  · rename_i opening inside h
    simp only [h]
    rw [parse]
    split
    · rename_i e stopped hle heq
      simp [heq, Outcome.andThen]
    · rename_i inner closing hle heq
      simp only [heq, Outcome.andThen]
      split <;> simp_all

theorem parse_unary (c : Cursor) :
    unary.parse c =
      match c.take? unaryOperators with
      | none => primary.parse c
      | some (operator, after) =>
          (unary.parse after).andThen fun operand rest =>
            (.ok (.unary operator operand), rest) := by
  rw [parse, readLevel]
  split
  · rename_i h
    simp [h, parse]
  · rename_i operator after h
    simp only [h]
    rw [parse]
    split
    · rename_i heq
      simp [heq, Outcome.andThen]
    · rename_i heq
      simp [heq, Outcome.andThen]

theorem parse_binary (tier : Tier) (c : Cursor) :
    (binary tier).parse c = (tier.operand.parse c).andThen tier.chain := by
  rw [parse, readLevel, parse]
  split
  · rename_i heq
    simp [heq, Outcome.andThen]
  · rename_i heq
    simp [heq, Outcome.andThen, Tier.chain]

end Level

theorem Tier.chain_eq (tier : Tier) (left : Expr) (c : Cursor) :
    tier.chain left c =
      match c.take? tier.operators with
      | none => (.ok left, c)
      | some (operator, after) =>
          (tier.operand.parse after).andThen fun right rest =>
            tier.chain (.binary left operator right) rest := by
  rw [chain, readChain]
  split
  · rename_i h
    simp [h]
  · rename_i operator after h
    simp only [h]
    rw [Level.parse]
    split
    · rename_i heq
      simp [heq, Outcome.andThen]
    · rename_i heq
      simp [heq, Outcome.andThen, chain]

namespace Level

variable {tier : Tier} {c d after behind : Cursor} {left right : Expr} {op : Token}

theorem parse_binary_of_operator (hleft : tier.operand.parse c = (.ok left, d))
    (hop : d.take? tier.operators = some (op, after)) :
    (binary tier).parse c =
      (tier.operand.parse after).andThen fun right rest =>
        tier.chain (.binary left op right) rest := by
  rw [parse_binary, hleft, Outcome.andThen, Tier.chain_eq, hop]

theorem parse_binary_of_pair (hleft : tier.operand.parse c = (.ok left, d))
    (hop : d.take? tier.operators = some (op, after))
    (hright : tier.operand.parse after = (.ok right, behind))
    (hstop : behind.take? tier.operators = none) :
    (binary tier).parse c = (.ok (.binary left op right), behind) := by
  rw [parse_binary_of_operator hleft hop, hright, Outcome.andThen, Tier.chain_eq, hstop]

end Level

end ExpressionLanguage
