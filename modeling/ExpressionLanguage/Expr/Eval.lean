import ExpressionLanguage.Diagnostic
import ExpressionLanguage.Expr.Basic

namespace ExpressionLanguage

def Value.asNumber (v : Value) (side : Side) (operator : String) (line : Nat) :
    Except RuntimeError Float :=
  match v.number? with
  | some x => .ok x
  | none => .error (.operandNotNumber side operator v.type line)

inductive Operation where
  | arithmetic (compute : Float → Float → Float)
  | comparison (compare : Float → Float → Bool)
  | equality (expected : Bool)

def Operation.ofKind? : Kind → Option Operation
  | .symbol .plus => some (.arithmetic fun a b => a + b)
  | .symbol .minus => some (.arithmetic fun a b => a - b)
  | .symbol .star => some (.arithmetic fun a b => a * b)
  | .symbol .slash => some (.arithmetic fun a b => a / b)
  | .symbol .greater => some (.comparison fun a b => a > b)
  | .symbol .greaterEqual => some (.comparison fun a b => a ≥ b)
  | .symbol .less => some (.comparison fun a b => a < b)
  | .symbol .lessEqual => some (.comparison fun a b => a ≤ b)
  | .symbol .doubleEqual => some (.equality true)
  | .symbol .bangEqual => some (.equality false)
  | _ => none

def numericOperands (left : Value) (operator : Token) (right : Value) :
    Except RuntimeError (Float × Float) :=
  (left.asNumber .left operator.lexeme operator.line).bind fun a =>
    (right.asNumber .right operator.lexeme operator.line).map fun b => (a, b)

def applyBinary (left : Value) (operator : Token) (right : Value) : Except RuntimeError Value :=
  match Operation.ofKind? operator.kind with
  | some (.arithmetic compute) =>
      (numericOperands left operator right).map fun (a, b) => .float (compute a b)
  | some (.comparison compare) =>
      (numericOperands left operator right).map fun (a, b) => .boolean (compare a b)
  | some (.equality expected) => .ok (.boolean ((left == right) == expected))
  | none => .error (.unsupportedOperator operator.lexeme operator.line)

def negateInteger (n : Int64) (line : Nat) : Except RuntimeError Value :=
  if n = Int64.minValue then .error (.overflow line) else .ok (.integer (-n))

def applyUnary (operator : Token) (operand : Value) : Except RuntimeError Value :=
  match operator.kind, operand with
  | .symbol .minus, .integer n => negateInteger n operator.line
  | .symbol .minus, .float x => .ok (.float (-x))
  | .symbol .bang, .boolean b => .ok (.boolean !b)
  | .symbol .minus, _ | .symbol .bang, _ =>
      .error (.invalidUnaryOperand operator.lexeme operand.type operator.line)
  | _, _ => .error (.unsupportedOperator operator.lexeme operator.line)

def Expr.eval : Expr → Except RuntimeError Value
  | literal value => .ok value
  | group inner => inner.eval
  | unary operator operand => operand.eval.bind (applyUnary operator)
  | binary left operator right =>
      left.eval.bind fun a => right.eval.bind fun b => applyBinary a operator b

theorem numericOperands_error_line {left right : Value} {operator : Token} {r : RuntimeError}
    (h : numericOperands left operator right = .error r) : r.line = operator.line := by
  unfold numericOperands Value.asNumber at h
  cases hl : left.number? with
  | none =>
      simp only [hl, Except.bind, Except.error.injEq] at h
      subst h
      rfl
  | some a =>
      cases hr : right.number? with
      | none =>
          simp only [hl, hr, Except.bind, Except.map, Except.error.injEq] at h
          subst h
          rfl
      | some b => simp [hl, hr, Except.bind, Except.map] at h

theorem applyBinary_error_line {left right : Value} {operator : Token} {r : RuntimeError}
    (h : applyBinary left operator right = .error r) : r.line = operator.line := by
  unfold applyBinary at h
  cases hn : numericOperands left operator right with
  | error e =>
      have he := numericOperands_error_line hn
      split at h <;> simp_all [Except.map]
      subst h
      rfl
  | ok p =>
      split at h <;> simp_all [Except.map]
      subst h
      rfl

end ExpressionLanguage
