import ExpressionLanguage.Proofs.Expr.Inference
import ExpressionLanguage.Proofs.Grammar.Operators
import ExpressionLanguage.Proofs.Numeral.Integer

namespace ExpressionLanguage

namespace Expr

def Supported : Expr → Prop
  | literal _ => True
  | group inner => inner.Supported
  | unary operator operand =>
      operator.kind.isOneOf Level.unaryOperators = true ∧ operand.Supported
  | binary left operator right =>
      left.Supported ∧ operator.kind.isOneOf Level.binaryOperators = true ∧ right.Supported

def operator? : Expr → Option Token
  | unary operator _ => some operator
  | binary _ operator _ => some operator
  | _ => none

def subtrees : Expr → List Expr
  | literal value => [literal value]
  | group inner => group inner :: inner.subtrees
  | unary operator operand => unary operator operand :: operand.subtrees
  | binary left operator right => binary left operator right :: (left.subtrees ++ right.subtrees)

theorem forall_subtrees {P : Expr → Prop} (hgroup : ∀ e, P (group e) → P e)
    (hunary : ∀ op e, P (unary op e) → P e)
    (hbinary : ∀ left op right, P (binary left op right) → P left ∧ P right) {e : Expr} (h : P e) :
    ∀ e' ∈ e.subtrees, P e' := by
  induction e with
  | literal value => simpa [subtrees] using h
  | group inner ih => simpa [subtrees, h] using ih (hgroup _ h)
  | unary operator operand ih => simpa [subtrees, h] using ih (hunary _ _ h)
  | binary left operator right ihleft ihright =>
    obtain ⟨hleft, hright⟩ := hbinary _ _ _ h
    intro e' he'
    rcases List.mem_cons.mp he' with rfl | he'
    · exact h
    · rcases List.mem_append.mp he' with he' | he'
      · exact ihleft hleft e' he'
      · exact ihright hright e' he'

theorem Supported.subtrees {e : Expr} (h : e.Supported) : ∀ e' ∈ e.subtrees, e'.Supported :=
  forall_subtrees (fun _ h => h) (fun _ _ h => h.2) (fun _ _ _ h => ⟨h.1, h.2.2⟩) h

theorem literals_subtrees {P : Value → Prop} {e : Expr} (h : ∀ v ∈ e.literals, P v) :
    ∀ e' ∈ e.subtrees, ∀ v ∈ e'.literals, P v :=
  forall_subtrees (fun _ h => h) (fun _ _ h => h) (fun _ _ _ h => List.forall_mem_append.mp h) h

inductive FailsAt (r : RuntimeError) : Expr → Prop
  | unary {op e v} : e.eval = .ok v → applyUnary op v = .error r → FailsAt r (.unary op e)
  | binary {left op right a b} : left.eval = .ok a → right.eval = .ok b →
      applyBinary a op b = .error r → FailsAt r (.binary left op right)

theorem exists_failsAt {e : Expr} {r : RuntimeError} (h : e.eval = .error r) :
    ∃ e' ∈ e.subtrees, FailsAt r e' := by
  induction e with
  | literal value => cases h
  | group inner ih =>
    obtain ⟨e', he', hfails⟩ := ih h
    exact ⟨e', by simp [subtrees, he'], hfails⟩
  | unary operator operand ih =>
    rcases bind_eq_error_iff.mp h with h | ⟨v, hv, happly⟩
    · obtain ⟨e', he', hfails⟩ := ih h
      exact ⟨e', by simp [subtrees, he'], hfails⟩
    · exact ⟨_, by simp [subtrees], .unary hv happly⟩
  | binary left operator right ihleft ihright =>
    rcases bind_eq_error_iff.mp h with h | ⟨a, ha, h⟩
    · obtain ⟨e', he', hfails⟩ := ihleft h
      exact ⟨e', by simp [subtrees, he'], hfails⟩
    · rcases bind_eq_error_iff.mp h with h | ⟨b, hb, happly⟩
      · obtain ⟨e', he', hfails⟩ := ihright h
        exact ⟨e', by simp [subtrees, he'], hfails⟩
      · exact ⟨_, by simp [subtrees], .binary ha hb happly⟩

end Expr

theorem Operation.ofKind?_isSome (kind : Kind) :
    (ofKind? kind).isSome = kind.isOneOf Level.binaryOperators := by
  cases kind with
  | symbol s => cases s <;> rfl
  | _ => rfl

def Side.pick {α : Type} (left right : α) : Side → α
  | .left => left
  | .right => right

theorem numericOperands_error {a b : Value} {operator : Token} {r : RuntimeError}
    (h : numericOperands a operator b = .error r) :
    ∃ side : Side, r = .operandNotNumber side operator.lexeme (side.pick a b).type operator.line ∧
      (side.pick a b).number? = none ∧ (side = .left ↔ a.number? = none) := by
  unfold numericOperands Value.asNumber at h
  cases ha : a.number? with
  | none => exact ⟨.left, by simpa [ha, Except.bind, Side.pick] using h.symm, ha, by simp⟩
  | some x =>
    cases hb : b.number? with
    | none =>
      refine ⟨.right, ?_, hb, by simp⟩
      simpa [ha, hb, Except.bind, Except.map, Side.pick] using h.symm
    | some y => simp [ha, hb, Except.bind, Except.map] at h

theorem applyBinary_error_cases {a b : Value} {operator : Token} {r : RuntimeError}
    (h : applyBinary a operator b = .error r) :
    numericOperands a operator b = .error r ∨
      r = .unsupportedOperator operator.lexeme operator.line ∧
        operator.kind.isOneOf Level.binaryOperators = false := by
  rw [← Operation.ofKind?_isSome]
  unfold applyBinary at h
  cases hkind : Operation.ofKind? operator.kind with
  | none => exact .inr ⟨by simpa [hkind] using h.symm, rfl⟩
  | some operation =>
    left
    cases hn : numericOperands a operator b with
    | ok p => cases operation <;> simp [hkind, hn, Except.map] at h
    | error s => cases operation <;> simp_all [Except.map]

theorem applyBinary_error {a b : Value} {operator : Token} {r : RuntimeError}
    (h : applyBinary a operator b = .error r) :
    (∃ side found, r = .operandNotNumber side operator.lexeme found operator.line) ∨
      r = .unsupportedOperator operator.lexeme operator.line ∧
        operator.kind.isOneOf Level.binaryOperators = false := by
  rcases applyBinary_error_cases h with h | h
  · obtain ⟨side, hr, -⟩ := numericOperands_error h
    exact .inl ⟨side, _, hr⟩
  · exact .inr h

theorem applyUnary_error {v : Value} {operator : Token} {r : RuntimeError}
    (h : applyUnary operator v = .error r) :
    r = .overflow operator.line ∧ v = .integer Int64.minValue ∨
      r = .invalidUnaryOperand operator.lexeme v.type operator.line ∨
      r = .unsupportedOperator operator.lexeme operator.line ∧
        operator.kind.isOneOf Level.unaryOperators = false := by
  unfold applyUnary at h
  split at h
  · rename_i n _
    unfold negateInteger at h
    split at h
    · rename_i hn
      exact .inl ⟨(Except.error.inj h).symm, congrArg Value.integer hn⟩
    · cases h
  · cases h
  · cases h
  · exact .inr (.inl (Except.error.inj h).symm)
  · exact .inr (.inl (Except.error.inj h).symm)
  · rename_i hminus hbang _ _ _
    refine .inr (.inr ⟨(Except.error.inj h).symm, ?_⟩)
    rw [← Bool.not_eq_true]
    intro hop
    obtain ⟨s, hs, hkind⟩ := Kind.isOneOf_iff.mp hop
    obtain rfl | rfl : s = .minus ∨ s = .bang := by simpa [Level.unaryOperators] using hs
    · exact hminus hkind
    · exact hbang hkind

namespace Expr

theorem Supported.eval_ne_unsupported {e : Expr} (h : e.Supported) (operator : String)
    (line : Nat) : e.eval ≠ .error (.unsupportedOperator operator line) := by
  intro heval
  obtain ⟨e', he', hfails⟩ := exists_failsAt heval
  have hsupported := h.subtrees e' he'
  cases hfails with
  | unary _ happly =>
    rcases applyUnary_error happly with ⟨hr, -⟩ | hr | ⟨-, hop⟩
    · cases hr
    · cases hr
    · simp [hsupported.1] at hop
  | binary _ _ happly =>
    rcases applyBinary_error happly with ⟨side, found, hr⟩ | ⟨-, hop⟩
    · cases hr
    · simp [hsupported.2.1] at hop

theorem eval_ne_overflow {e : Expr} (h : ∀ v ∈ e.literals, v.Negatable) (line : Nat) :
    e.eval ≠ .error (.overflow line) := by
  intro heval
  obtain ⟨e', he', hfails⟩ := exists_failsAt heval
  have hnegatable := literals_subtrees h e' he'
  cases hfails with
  | unary hv happly =>
    rcases applyUnary_error happly with ⟨-, hmin⟩ | hr | ⟨hr, -⟩
    · exact eval_negatable hv hnegatable hmin
    · cases hr
    · cases hr
  | binary _ _ happly =>
    rcases applyBinary_error happly with ⟨side, found, hr⟩ | ⟨hr, -⟩
    · cases hr
    · cases hr

end Expr

theorem Value.Negatable.bounds {n : Int64} (h : (Value.integer n).Negatable) :
    -9223372036854775807 ≤ n.toInt ∧ n.toInt ≤ 9223372036854775807 := by
  have habs := Numeral.natAbs_le_positiveLimit fun heq => h (congrArg Value.integer heq)
  have hlimit : Numeral.positiveLimit = 2 ^ 63 - 1 := rfl
  omega

end ExpressionLanguage
