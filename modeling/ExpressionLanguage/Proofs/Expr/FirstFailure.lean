import ExpressionLanguage.Proofs.Expr.Failure

namespace ExpressionLanguage

namespace Expr

def postorder : Expr → List Expr
  | literal value => [literal value]
  | group inner => inner.postorder ++ [group inner]
  | unary operator operand => operand.postorder ++ [unary operator operand]
  | binary left operator right =>
      left.postorder ++ right.postorder ++ [binary left operator right]

/-- The node `n` fails, and the nodes before it in the list all have values. -/
structure FirstFailure (nodes : List Expr) (r : RuntimeError) (before : List Expr) (n : Expr)
    (after : List Expr) : Prop where
  split : nodes = before ++ n :: after
  earlier : ∀ m ∈ before, ∃ v, m.eval = .ok v
  fails : FailsAt r n

theorem mem_postorder_iff {e m : Expr} : m ∈ e.postorder ↔ m ∈ e.subtrees := by
  induction e with
  | literal value => rfl
  | group inner ih => simp [postorder, subtrees, ih, or_comm]
  | unary operator operand ih => simp [postorder, subtrees, ih, or_comm]
  | binary left operator right ihleft ihright =>
    simp only [postorder, subtrees, List.mem_append, List.mem_cons, List.not_mem_nil, or_false,
      ihleft, ihright]
    exact or_comm

theorem values_postorder {e : Expr} {v : Value} (h : e.eval = .ok v) :
    ∀ m ∈ e.postorder, ∃ u, m.eval = .ok u := by
  intro m hm
  refine forall_subtrees (P := fun e => ∃ v, e.eval = .ok v) ?_ ?_ ?_ ⟨v, h⟩ m
    (mem_postorder_iff.mp hm)
  · exact fun e h => h
  · rintro op e ⟨v, hv⟩
    obtain ⟨a, ha, -⟩ := bind_eq_ok_iff.mp hv
    exact ⟨a, ha⟩
  · rintro left op right ⟨v, hv⟩
    obtain ⟨a, ha, hright⟩ := bind_eq_ok_iff.mp hv
    obtain ⟨b, hb, -⟩ := bind_eq_ok_iff.mp hright
    exact ⟨⟨a, ha⟩, ⟨b, hb⟩⟩

namespace FailsAt

variable {n : Expr} {r : RuntimeError}

theorem eval (h : FailsAt r n) : n.eval = .error r := by
  cases h with
  | unary hv happly => exact bind_eq_error_iff.mpr (.inr ⟨_, hv, happly⟩)
  | binary ha hb happly =>
    exact bind_eq_error_iff.mpr (.inr ⟨_, ha, bind_eq_error_iff.mpr (.inr ⟨_, hb, happly⟩)⟩)

theorem line (h : FailsAt r n) : ∃ op, n.operator? = some op ∧ r.line = op.line := by
  cases h with
  | @unary op _ _ _ happly =>
    refine ⟨op, rfl, ?_⟩
    rcases applyUnary_error happly with ⟨rfl, -⟩ | rfl | ⟨rfl, -⟩
    · rfl
    · rfl
    · rfl
  | @binary _ op _ _ _ _ _ happly => exact ⟨op, rfl, applyBinary_error_line happly⟩

theorem side {side : Side} {lexeme : String} {found : ValueType} {line : Nat}
    (h : FailsAt (.operandNotNumber side lexeme found line) n) :
    ∃ left op right a b, n = .binary left op right ∧ left.eval = .ok a ∧ right.eval = .ok b ∧
      lexeme = op.lexeme ∧ (side = .left ↔ a.number? = none) ∧
      (side.pick a b).number? = none ∧ found = (side.pick a b).type := by
  cases h with
  | unary _ happly => rcases applyUnary_error happly with ⟨hr, -⟩ | hr | ⟨hr, -⟩ <;> cases hr
  | @binary left op right a b ha hb happly =>
    rcases applyBinary_error_cases happly with hnumeric | ⟨hr, -⟩
    · obtain ⟨side', hr, hpick, hside⟩ := numericOperands_error hnumeric
      obtain ⟨rfl, rfl, rfl, -⟩ := RuntimeError.operandNotNumber.inj hr
      exact ⟨left, op, right, a, b, rfl, ha, hb, rfl, hside, hpick, rfl⟩
    · cases hr

end FailsAt

namespace FirstFailure

variable {xs ys before before' after after' : List Expr} {n n' : Expr} {r r' : RuntimeError}

theorem append (h : FirstFailure xs r before n after) (ys : List Expr) :
    FirstFailure (xs ++ ys) r before n (after ++ ys) :=
  ⟨by rw [h.split, List.append_assoc, List.cons_append], h.earlier, h.fails⟩

theorem after_values (hxs : ∀ m ∈ xs, ∃ v, m.eval = .ok v)
    (h : FirstFailure ys r before n after) :
    FirstFailure (xs ++ ys) r (xs ++ before) n after :=
  ⟨by rw [h.split, List.append_assoc], List.forall_mem_append.mpr ⟨hxs, h.earlier⟩, h.fails⟩

theorem last (hxs : ∀ m ∈ xs, ∃ v, m.eval = .ok v) (h : FailsAt r n) :
    FirstFailure (xs ++ [n]) r xs n [] :=
  ⟨rfl, hxs, h⟩

theorem not_mem_earlier (h : FirstFailure xs r before n after) (h' : FailsAt r' n') :
    n' ∉ before := by
  intro hmem
  obtain ⟨v, hv⟩ := h.earlier n' hmem
  rw [h'.eval] at hv
  cases hv

theorem unique (h : FirstFailure xs r before n after) (h' : FirstFailure xs r' before' n' after') :
    r = r' ∧ before = before' ∧ n = n' ∧ after = after' := by
  have hsame : before = before' ∧ n = n' ∧ after = after' := by
    -- the longer of the two beginnings would hold the failing node of the other one
    rcases List.append_eq_append_iff.mp (h.split.symm.trans h'.split) with
      ⟨ms, rfl, hms⟩ | ⟨ms, rfl, hms⟩
    · cases ms with
      | nil => simpa using hms
      | cons m ms =>
        obtain rfl := (List.cons.inj hms).1
        exact absurd (by simp) (h'.not_mem_earlier h.fails)
    · cases ms with
      | nil => simpa [eq_comm] using hms
      | cons m ms =>
        obtain rfl := (List.cons.inj hms).1
        exact absurd (by simp) (h.not_mem_earlier h'.fails)
  obtain ⟨rfl, rfl, rfl⟩ := hsame
  exact ⟨Except.error.inj (h.fails.eval.symm.trans h'.fails.eval), rfl, rfl, rfl⟩

end FirstFailure

theorem exists_firstFailure {e : Expr} {r : RuntimeError} (h : e.eval = .error r) :
    ∃ before n after, FirstFailure e.postorder r before n after := by
  induction e with
  | literal value => cases h
  | group inner ih =>
    obtain ⟨before, n, after, hfirst⟩ := ih h
    exact ⟨before, n, _, hfirst.append _⟩
  | unary operator operand ih =>
    rcases bind_eq_error_iff.mp h with h | ⟨v, hv, happly⟩
    · obtain ⟨before, n, after, hfirst⟩ := ih h
      exact ⟨before, n, _, hfirst.append _⟩
    · exact ⟨_, _, _, .last (values_postorder hv) (.unary hv happly)⟩
  | binary left operator right ihleft ihright =>
    rcases bind_eq_error_iff.mp h with h | ⟨a, ha, h⟩
    · obtain ⟨before, n, after, hfirst⟩ := ihleft h
      exact ⟨before, n, _, (hfirst.append _).append _⟩
    · rcases bind_eq_error_iff.mp h with h | ⟨b, hb, happly⟩
      · obtain ⟨before, n, after, hfirst⟩ := ihright h
        exact ⟨_, n, _, (hfirst.after_values (values_postorder ha)).append _⟩
      · have hvalues := List.forall_mem_append.mpr ⟨values_postorder ha, values_postorder hb⟩
        exact ⟨_, _, _, .last hvalues (.binary ha hb happly)⟩

theorem FirstFailure.eval {e n : Expr} {r : RuntimeError} {before after : List Expr}
    (h : FirstFailure e.postorder r before n after) : e.eval = .error r := by
  cases heval : e.eval with
  | ok v =>
    have hmem : n ∈ e.postorder := by simp [h.split]
    obtain ⟨u, hu⟩ := values_postorder heval n hmem
    rw [h.fails.eval] at hu
    cases hu
  | error s =>
    obtain ⟨_, _, _, hfirst⟩ := exists_firstFailure heval
    rw [(h.unique hfirst).1]

end Expr

theorem eval_reports_first_failure (e : Expr) :
    (∀ r, e.eval = .error r ↔
      ∃ before n after, Expr.FirstFailure e.postorder r before n after) ∧
    (∀ r before n after s before' n' after', Expr.FirstFailure e.postorder r before n after →
      Expr.FirstFailure e.postorder s before' n' after' →
      r = s ∧ before = before' ∧ n = n' ∧ after = after') ∧
    ∀ r before n after, Expr.FirstFailure e.postorder r before n after →
      (∃ op, n.operator? = some op ∧ r.line = op.line) ∧
      ∀ side lexeme found line, r = .operandNotNumber side lexeme found line →
        ∃ left op right a b, n = .binary left op right ∧ left.eval = .ok a ∧
          right.eval = .ok b ∧ lexeme = op.lexeme ∧ (side = .left ↔ a.number? = none) ∧
          (side.pick a b).number? = none ∧ found = (side.pick a b).type := by
  refine ⟨?_, ?_, ?_⟩
  · intro r
    constructor
    · exact Expr.exists_firstFailure
    · rintro ⟨before, n, after, hfirst⟩
      exact hfirst.eval
  · intro r before n after s before' n' after' hfirst hfirst'
    exact hfirst.unique hfirst'
  · intro r before n after hfirst
    refine ⟨hfirst.fails.line, ?_⟩
    rintro side lexeme found line rfl
    exact hfirst.fails.side

def faultySum : Expr :=
  .binary (.literal (.integer 1)) ⟨.symbol .plus, "+", 5⟩ (.literal (.string "a"))

def threeFaults : Expr :=
  .binary (.group faultySum) ⟨.symbol .star, "*", 2⟩
    (.unary ⟨.symbol .comma, ",", 3⟩ (.literal .null))

theorem eval_reports_first_failure_threeFaults :
    let r : RuntimeError := .operandNotNumber .right "+" .string 5
    let before : List Expr := [.literal (.integer 1), .literal (.string "a")]
    (∃ after, Expr.FirstFailure threeFaults.postorder r before faultySum after) ∧
    threeFaults.eval = .error r ∧
    (∀ s before' n after, Expr.FirstFailure threeFaults.postorder s before' n after →
      s = r ∧ before' = before ∧ n = faultySum) ∧
    (∃ op, faultySum.operator? = some op ∧ op.line = 5) ∧
    ∃ a b : Value, a.number? ≠ none ∧ b.number? = none ∧ b.type = .string := by
  intro r before
  have hvalues : ∀ m ∈ before, ∃ v, m.eval = .ok v := by simp [before, Expr.eval]
  have hfails : Expr.FailsAt r faultySum := .binary rfl rfl rfl
  have hfirst : Expr.FirstFailure threeFaults.postorder r before faultySum _ :=
    ⟨rfl, hvalues, hfails⟩
  obtain ⟨heval, hunique, hdetails⟩ := eval_reports_first_failure threeFaults
  obtain ⟨⟨op, hop, hline⟩, hside⟩ := hdetails _ _ _ _ hfirst
  obtain ⟨_, _, _, a, b, -, -, -, -, hleft, hnumber, htype⟩ := hside _ _ _ _ rfl
  refine ⟨⟨_, hfirst⟩, (heval r).mpr ⟨_, _, _, hfirst⟩, ?_, ⟨op, hop, hline.symm⟩, a, b, ?_,
    hnumber, htype.symm⟩
  · intro s before' n after h
    obtain ⟨hs, hbefore, hn, -⟩ := hunique _ _ _ _ _ _ _ _ h hfirst
    exact ⟨hs, hbefore, hn⟩
  · intro ha
    exact absurd (hleft.mpr ha) (by decide)

end ExpressionLanguage
