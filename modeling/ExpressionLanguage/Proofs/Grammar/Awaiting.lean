import ExpressionLanguage.Proofs.Grammar.Exactness

/-!
What may come next. Whatever the levels of its operators, a sentence alternates between operands
and operators, and its groups close in the order in which they opened; so one bit and the number of
open groups tell which tokens can follow a prefix.
-/

namespace ExpressionLanguage

inductive Awaiting where
  | operand (depth : Nat)
  | operator (depth : Nat)
deriving DecidableEq, Repr

namespace Awaiting

def step : Awaiting → Token → Option Awaiting
  | operand depth, t =>
      if t.kind = .symbol .leftParen then some (operand (depth + 1))
      else if t.kind.isOneOf Level.unaryOperators then some (operand depth)
      else if t.meaning.isOk then some (operator depth)
      else none
  | operator depth, t =>
      if t.kind.isOneOf Level.binaryOperators then some (operand depth)
      else if t.kind = .symbol .rightParen ∧ 0 < depth then some (operator (depth - 1))
      else none

@[simp] def run : Awaiting → List Token → Option Awaiting
  | s, [] => some s
  | s, t :: w => (s.step t).bind fun s' => s'.run w

theorem run_append (s : Awaiting) (v w : List Token) :
    s.run (v ++ w) = (s.run v).bind fun s' => s'.run w := by
  induction v generalizing s with
  | nil => rfl
  | cons t v ih => simp [ih, Option.bind_assoc]

variable {n : Nat} {t : Token}

theorem step_leftParen (h : t.kind = .symbol .leftParen) :
    (operand n).step t = some (operand (n + 1)) := by
  simp [step, h]

theorem step_unary (h : t.kind.isOneOf Level.unaryOperators = true) :
    (operand n).step t = some (operand n) := by
  have hkind : t.kind ≠ .symbol .leftParen := by
    intro hkind
    simp [hkind, Kind.isOneOf, Level.unaryOperators] at h
  simp [step, hkind, h]

theorem step_literal {v : Value} (h : t.meaning = .ok v) :
    (operand n).step t = some (operator n) := by
  have hliteral := Token.isLiteral_of_meaning h
  have hkind : t.kind ≠ .symbol .leftParen := by
    intro hkind
    simp [hkind, Kind.isLiteral] at hliteral
  have hunary := Token.isOneOf_of_isLiteral hliteral Level.unaryOperators
  simp [step, hkind, hunary, h, Except.isOk, Except.toBool]

theorem step_binary {tier : Tier} (h : t.kind.isOneOf tier.operators = true) :
    (operator n).step t = some (operand n) := by
  obtain ⟨s, hs, hkind⟩ := Kind.isOneOf_iff.mp h
  have hbinary : t.kind.isOneOf Level.binaryOperators = true :=
    Kind.isOneOf_iff.mpr ⟨s, (Rule.of_tables tier).mem_binaryOperators hs, hkind⟩
  simp [step, hbinary]

theorem step_rightParen (h : t.kind = .symbol .rightParen) :
    (operator (n + 1)).step t = some (operator n) := by
  have hbinary : (Kind.symbol .rightParen).isOneOf Level.binaryOperators = false := by decide
  simp [step, hbinary, h]

theorem step_operand_eq_none (hparen : t.kind ≠ .symbol .leftParen)
    (hunary : t.kind.isOneOf Level.unaryOperators = false) (hmeaning : ∀ v, t.meaning ≠ .ok v) :
    (operand n).step t = none := by
  have hfault : t.meaning.isOk = false := by
    cases h : t.meaning with
    | error fault => rfl
    | ok v => exact absurd h (hmeaning v)
  simp [step, hparen, hunary, hfault]

theorem step_operator_eq_none (hop : ¬ Level.expression.Extends t)
    (hparen : t.kind = .symbol .rightParen → n = 0) : (operator n).step t = none := by
  have hbinary : t.kind.isOneOf Level.binaryOperators = false := by
    rw [← Bool.not_eq_true, Kind.isOneOf_iff, ← Level.extends_expression_iff]
    exact hop
  have hclosed : ¬ (t.kind = .symbol .rightParen ∧ 0 < n) := by
    rintro ⟨hkind, hpos⟩
    have hzero := hparen hkind
    omega
  simp [step, hbinary, hclosed]

theorem step_endOfInput (s : Awaiting) (h : t.kind = .endOfInput) : s.step t = none := by
  cases s with
  | operand n =>
    refine step_operand_eq_none (by simp [h]) (by simp [h, Kind.isOneOf]) ?_
    intro v hv
    have hliteral := Token.isLiteral_of_meaning hv
    simp [h, Kind.isLiteral] at hliteral
  | operator n =>
    refine step_operator_eq_none ?_ (by simp [h])
    intro hextends
    obtain ⟨s, -, hkind⟩ := hextends.mem_binaryOperators
    simp [h] at hkind

theorem kind_ne_endOfInput_of_run {s s' : Awaiting} {w : List Token} (h : s.run w = some s') :
    ∀ t ∈ w, t.kind ≠ .endOfInput := by
  induction w generalizing s with
  | nil => simp
  | cons u w ih =>
    rw [run, Option.bind_eq_some_iff] at h
    obtain ⟨s₁, hstep, hrun⟩ := h
    intro t ht hend
    rcases List.mem_cons.mp ht with rfl | ht
    · simp [step_endOfInput s hend] at hstep
    · exact ih hrun t ht hend

/-- An expression of any level takes the place of one operand. -/
theorem run_of_derives {level : Level} {w : List Token} {e : Expr} (h : Derives level w e)
    (n : Nat) : (operand n).run w = some (operator n) := by
  induction h generalizing n with
  | literal hvalue => simp [step_literal (Token.standsFor_iff.mp hvalue)]
  | group hopen _ hclose ih => simp [step_leftParen hopen, run_append, ih, step_rightParen hclose]
  | primary _ ih => exact ih n
  | unary hop _ ih => simp [step_unary (Kind.isOneOf_unaryOperators_iff.mpr hop), ih]
  | operand _ _ ih => exact ih n
  | chain hrule _ hs hop _ ihleft ihright =>
    have hbinary := Kind.isOneOf_iff.mpr ⟨_, hrule.operators_eq ▸ hs, hop⟩
    simp [run_append, ihleft, step_binary hbinary, ihright]

theorem run_of_sentence {w : List Token} (h : Sentence w) :
    (operand 0).run w = some (operator 0) := by
  obtain ⟨e, he⟩ := h
  exact run_of_derives he 0

theorem run_replicate_rightParen (h : t.kind = .symbol .rightParen) (n : Nat) :
    (operator n).run (List.replicate n t) = some (operator 0) := by
  induction n with
  | zero => rfl
  | succ n ih => simp [List.replicate_succ, step_rightParen h, ih]

end Awaiting

end ExpressionLanguage
