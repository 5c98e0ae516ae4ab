import ExpressionLanguage.Expr.Eval
import ExpressionLanguage.Proofs.Grammar.Derivation

namespace ExpressionLanguage

def Token.mapLine (f : Nat → Nat) (t : Token) : Token :=
  { t with line := f t.line }

@[simp] theorem Token.mapLine_kind (f : Nat → Nat) (t : Token) : (t.mapLine f).kind = t.kind := rfl

def Expr.mapLines (f : Nat → Nat) : Expr → Expr
  | literal value => literal value
  | group inner => group (inner.mapLines f)
  | unary operator operand => unary (operator.mapLine f) (operand.mapLines f)
  | binary left operator right =>
      binary (left.mapLines f) (operator.mapLine f) (right.mapLines f)

def RuntimeError.mapLine (f : Nat → Nat) : RuntimeError → RuntimeError
  | operandNotNumber side operator found line => operandNotNumber side operator found (f line)
  | invalidUnaryOperand operator found line => invalidUnaryOperand operator found (f line)
  | unsupportedOperator operator line => unsupportedOperator operator (f line)
  | overflow line => overflow (f line)

def ScanError.mapLine (f : Nat → Nat) : ScanError → ScanError
  | unterminatedString line => unterminatedString (f line)
  | unexpectedCharacter character line => unexpectedCharacter character (f line)

def ParseError.mapLine (f : Nat → Nat) : ParseError → ParseError
  | unterminatedGroup line => unterminatedGroup (f line)
  | expectedExpression found line => expectedExpression found (f line)
  | unexpectedTrailingToken lexeme line => unexpectedTrailingToken lexeme (f line)
  | literalTooLarge lexeme line => literalTooLarge lexeme (f line)
  | malformedLiteral kind lexeme line => malformedLiteral kind lexeme (f line)

theorem Derives.mapLines {level : Level} {w : List Token} {e : Expr} (h : Derives level w e)
    (f : Nat → Nat) : Derives level (w.map (Token.mapLine f)) (e.mapLines f) := by
  induction h with
  | @literal t v hvalue =>
    have hmeaning := Token.standsFor_iff.mp hvalue
    exact .of_meaning (t := t.mapLine f) hmeaning
  | group hopen _ hclose ih =>
    rw [List.map_append]
    exact .group hopen ih hclose
  | primary _ ih => exact .primary ih
  | unary hop _ ih => exact .unary hop ih
  | operand hrule _ ih => exact .operand hrule ih
  | chain hrule _ hs hop _ ihleft ihright =>
    rw [List.map_append]
    exact .chain hrule ihleft hs hop ihright

section

variable {ε δ α β : Type}

theorem mapError_bind (x : Except ε α) (g : α → Except ε β) (h : ε → δ) :
    (x.bind g).mapError h = (x.mapError h).bind fun a => (g a).mapError h := by
  cases x <;> rfl

theorem mapError_map (x : Except ε α) (g : α → β) (h : ε → δ) :
    (x.map g).mapError h = (x.mapError h).map g := by
  cases x <;> rfl

end

variable (f : Nat → Nat)

theorem numericOperands_mapLine (a b : Value) (operator : Token) :
    numericOperands a (operator.mapLine f) b =
      (numericOperands a operator b).mapError (RuntimeError.mapLine f) := by
  unfold numericOperands Value.asNumber
  cases a.number? with
  | none => rfl
  | some x =>
    cases b.number? with
    | none => rfl
    | some y => rfl

theorem applyBinary_mapLine (a b : Value) (operator : Token) :
    applyBinary a (operator.mapLine f) b =
      (applyBinary a operator b).mapError (RuntimeError.mapLine f) := by
  unfold applyBinary
  rw [Token.mapLine_kind, numericOperands_mapLine]
  cases Operation.ofKind? operator.kind with
  | none => rfl
  | some operation =>
    cases operation with
    | arithmetic compute => exact (mapError_map _ _ _).symm
    | comparison compare => exact (mapError_map _ _ _).symm
    | equality expected => rfl

theorem applyUnary_mapLine (operator : Token) (v : Value) :
    applyUnary (operator.mapLine f) v =
      (applyUnary operator v).mapError (RuntimeError.mapLine f) := by
  obtain ⟨kind, lexeme, line⟩ := operator
  unfold applyUnary negateInteger
  simp only [Token.mapLine]
  split
  · split <;> rfl
  all_goals rfl

theorem Expr.eval_mapLines (e : Expr) :
    (e.mapLines f).eval = e.eval.mapError (RuntimeError.mapLine f) := by
  induction e with
  | literal value => rfl
  | group inner ih => exact ih
  | unary operator operand ih =>
    simp only [mapLines, eval, ih, mapError_bind, ← applyUnary_mapLine f]
  | binary left operator right ihleft ihright =>
    simp only [mapLines, eval, ihleft, ihright, mapError_bind, applyBinary_mapLine f]

end ExpressionLanguage
