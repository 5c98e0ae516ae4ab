import ExpressionLanguage.Expr.Eval

/-!
Evaluation by types. An evaluator that knows only the types of the literals finds the type of the
value, or the very error, that evaluation comes to. The least integer is the one value with which
types do not tell all; it is not the value of a tree in which it is not a literal.
-/

namespace ExpressionLanguage

def ValueType.isNumber : ValueType → Bool
  | integer | float => true
  | _ => false

def numericTypes (left : ValueType) (operator : Token) (right : ValueType) :
    Except RuntimeError Unit :=
  if left.isNumber then
    if right.isNumber then .ok ()
    else .error (.operandNotNumber .right operator.lexeme right operator.line)
  else .error (.operandNotNumber .left operator.lexeme left operator.line)

def inferBinary (left : ValueType) (operator : Token) (right : ValueType) :
    Except RuntimeError ValueType :=
  match Operation.ofKind? operator.kind with
  | some (.arithmetic _) => (numericTypes left operator right).map fun _ => .float
  | some (.comparison _) => (numericTypes left operator right).map fun _ => .boolean
  | some (.equality _) => .ok .boolean
  | none => .error (.unsupportedOperator operator.lexeme operator.line)

def inferUnary (operator : Token) (operand : ValueType) : Except RuntimeError ValueType :=
  match operator.kind with
  | .symbol .minus =>
      if operand.isNumber then .ok operand
      else .error (.invalidUnaryOperand operator.lexeme operand operator.line)
  | .symbol .bang =>
      if operand = .boolean then .ok .boolean
      else .error (.invalidUnaryOperand operator.lexeme operand operator.line)
  | _ => .error (.unsupportedOperator operator.lexeme operator.line)

namespace Expr

def infer : Expr → Except RuntimeError ValueType
  | literal value => .ok value.type
  | group inner => inner.infer
  | unary operator operand => operand.infer.bind (inferUnary operator)
  | binary left operator right =>
      left.infer.bind fun a => right.infer.bind fun b => inferBinary a operator b

def literals : Expr → List Value
  | literal value => [value]
  | group inner => inner.literals
  | unary _ operand => operand.literals
  | binary left _ right => left.literals ++ right.literals

inductive SameTypes : Expr → Expr → Prop
  | literal {v v'} : v.type = v'.type → SameTypes (.literal v) (.literal v')
  | group {e e'} : SameTypes e e' → SameTypes (.group e) (.group e')
  | unary {op e e'} : SameTypes e e' → SameTypes (.unary op e) (.unary op e')
  | binary {l l' op r r'} : SameTypes l l' → SameTypes r r' →
      SameTypes (.binary l op r) (.binary l' op r')

theorem SameTypes.infer_eq {e e' : Expr} (h : SameTypes e e') : e.infer = e'.infer := by
  induction h with
  | literal htype => simp [infer, htype]
  | group _ ih => exact ih
  | unary _ ih => simp [infer, ih]
  | binary _ _ ihleft ihright => simp [infer, ihleft, ihright]

end Expr

def Value.Negatable (v : Value) : Prop :=
  v ≠ .integer Int64.minValue

theorem numericOperands_types (a b : Value) (operator : Token) :
    (numericOperands a operator b).map (fun _ => ()) = numericTypes a.type operator b.type := by
  cases a <;> cases b <;> rfl

theorem applyBinary_type (a b : Value) (operator : Token) :
    (applyBinary a operator b).map Value.type = inferBinary a.type operator b.type := by
  have htypes := numericOperands_types a b operator
  unfold applyBinary inferBinary
  rw [← htypes]
  cases Operation.ofKind? operator.kind with
  | none => rfl
  | some operation =>
    cases operation with
    | equality expected => rfl
    | arithmetic compute => cases numericOperands a operator b <;> rfl
    | comparison compare => cases numericOperands a operator b <;> rfl

theorem applyBinary_negatable {a b v : Value} {operator : Token}
    (h : applyBinary a operator b = .ok v) : v.Negatable := by
  unfold applyBinary at h
  rintro rfl
  cases hn : numericOperands a operator b <;> split at h <;> simp [hn, Except.map] at h

theorem neg_ne_minValue {n : Int64} (h : n ≠ Int64.minValue) : -n ≠ Int64.minValue := by
  intro heq
  apply h
  rw [← Int64.neg_inj, heq]
  decide

theorem negateInteger_of_ne {n : Int64} (h : n ≠ Int64.minValue) (line : Nat) :
    negateInteger n line = .ok (.integer (-n)) := by
  simp [negateInteger, h]

theorem applyUnary_unsupported {operator : Token} (hminus : operator.kind ≠ .symbol .minus)
    (hbang : operator.kind ≠ .symbol .bang) (v : Value) :
    applyUnary operator v = .error (.unsupportedOperator operator.lexeme operator.line) := by
  unfold applyUnary
  split <;> first | contradiction | rfl

theorem applyUnary_type {v : Value} (h : v.Negatable) (operator : Token) :
    (applyUnary operator v).map Value.type = inferUnary operator v.type := by
  by_cases hminus : operator.kind = .symbol .minus
  · simp only [applyUnary, inferUnary, hminus]
    cases v with
    | integer n =>
      have hn : n ≠ Int64.minValue := fun heq => h (congrArg Value.integer heq)
      simp only [negateInteger_of_ne hn]
      rfl
    | _ => rfl
  · by_cases hbang : operator.kind = .symbol .bang
    · simp only [applyUnary, inferUnary, hbang]
      cases v <;> rfl
    · rw [applyUnary_unsupported hminus hbang]
      unfold inferUnary
      split <;> first | contradiction | rfl

theorem applyUnary_negatable {v u : Value} {operator : Token} (h : v.Negatable)
    (hu : applyUnary operator v = .ok u) : u.Negatable := by
  unfold applyUnary at hu
  split at hu
  · rename_i n _
    have hn : n ≠ Int64.minValue := fun heq => h (congrArg Value.integer heq)
    rw [negateInteger_of_ne hn] at hu
    obtain rfl : .integer (-n) = u := by simpa using hu
    intro heq
    exact neg_ne_minValue hn (Value.integer.inj heq)
  all_goals
    cases hu <;> simp [Value.Negatable]

theorem bind_eq_ok_iff {ε α β : Type} {x : Except ε α} {f : α → Except ε β} {b : β} :
    x.bind f = .ok b ↔ ∃ a, x = .ok a ∧ f a = .ok b := by
  cases x <;> simp [Except.bind]

theorem bind_eq_error_iff {ε α β : Type} {x : Except ε α} {f : α → Except ε β} {r : ε} :
    x.bind f = .error r ↔ x = .error r ∨ ∃ a, x = .ok a ∧ f a = .error r := by
  cases x <;> simp [Except.bind]

namespace Expr

theorem eval_negatable {e : Expr} {v : Value} (hv : e.eval = .ok v)
    (h : ∀ v ∈ e.literals, v.Negatable) : v.Negatable := by
  induction e generalizing v with
  | literal value =>
    obtain rfl : value = v := by simpa [eval] using hv
    exact h value (by simp [literals])
  | group inner ih => exact ih hv h
  | unary operator operand ih =>
    obtain ⟨u, hu, happly⟩ := bind_eq_ok_iff.mp hv
    exact applyUnary_negatable (ih hu h) happly
  | binary left operator right _ _ =>
    obtain ⟨a, -, hright⟩ := bind_eq_ok_iff.mp hv
    obtain ⟨b, -, happly⟩ := bind_eq_ok_iff.mp hright
    exact applyBinary_negatable happly

theorem eval_type {e : Expr} (h : ∀ v ∈ e.literals, v.Negatable) :
    e.eval.map Value.type = e.infer := by
  induction e with
  | literal value => rfl
  | group inner ih => exact ih h
  | unary operator operand ih =>
    rw [eval, infer, ← ih h]
    cases hv : operand.eval with
    | error r => rfl
    | ok v => exact applyUnary_type (eval_negatable hv h) operator
  | binary left operator right ihleft ihright =>
    obtain ⟨hleft, hright⟩ := List.forall_mem_append.mp h
    rw [eval, infer, ← ihleft hleft, ← ihright hright]
    cases left.eval with
    | error r => rfl
    | ok a =>
      cases right.eval with
      | error r => rfl
      | ok b => exact applyBinary_type a b operator

end Expr

theorem eval_determined_by_types (e e' : Expr) (h : Expr.SameTypes e e')
    (hmin : ∀ v ∈ e.literals ++ e'.literals, v ≠ .integer Int64.minValue) :
    (∃ v v', e.eval = .ok v ∧ e'.eval = .ok v' ∧ v.type.name = v'.type.name) ∨
      ∃ r, e.eval = .error r ∧ e'.eval = .error r := by
  obtain ⟨hmin, hmin'⟩ := List.forall_mem_append.mp hmin
  have htype := Expr.eval_type hmin
  rw [h.infer_eq, ← Expr.eval_type hmin'] at htype
  cases heval : e.eval with
  | ok v =>
    cases heval' : e'.eval with
    | ok v' =>
      have hsame : v.type = v'.type := by simpa [heval, heval', Except.map] using htype
      exact .inl ⟨v, v', rfl, rfl, congrArg ValueType.name hsame⟩
    | error r' => simp [heval, heval', Except.map] at htype
  | error r =>
    cases heval' : e'.eval with
    | ok v' => simp [heval, heval', Except.map] at htype
    | error r' =>
      have hsame : r = r' := by simpa [heval, heval', Except.map] using htype
      exact .inr ⟨r, rfl, by rw [hsame]⟩

def negatedQuotient (n d : Int64) : Expr :=
  .unary ⟨.symbol .minus, "-", 2⟩
    (.group (.binary (.literal (.integer n)) ⟨.symbol .slash, "/", 3⟩ (.literal (.integer d))))

theorem eval_determined_by_types_negatedQuotient :
    Expr.SameTypes (negatedQuotient 10 0) (negatedQuotient 0 3) ∧
    ∃ v v', (negatedQuotient 10 0).eval = .ok v ∧ (negatedQuotient 0 3).eval = .ok v' ∧
      v.type.name = v'.type.name := by
  have hsame : Expr.SameTypes (negatedQuotient 10 0) (negatedQuotient 0 3) :=
    .unary (.group (.binary (.literal rfl) (.literal rfl)))
  have hints : (10 : Int64) ≠ Int64.minValue ∧ (0 : Int64) ≠ Int64.minValue ∧
      (3 : Int64) ≠ Int64.minValue := by decide
  have hmin : ∀ v ∈ (negatedQuotient 10 0).literals ++ (negatedQuotient 0 3).literals,
      v ≠ .integer Int64.minValue := by
    simpa [negatedQuotient, Expr.literals] using hints
  rcases eval_determined_by_types _ _ hsame hmin with hok | ⟨r, herror, -⟩
  · exact ⟨hsame, hok⟩
  · have hok : (negatedQuotient 10 0).eval.isOk = true := rfl
    simp [herror, Except.isOk, Except.toBool] at hok

end ExpressionLanguage
