import ExpressionLanguage.Grammar.Whole
import ExpressionLanguage.Proofs.Grammar.Derivation
import ExpressionLanguage.Proofs.Grammar.Induction

namespace ExpressionLanguage

def Cursor.upToEnd (c : Cursor) : Cursor :=
  { c with tokens := beforeEnd c.tokens }

def Outcome.upToEnd (o : Outcome) : Outcome :=
  (o.1, o.2.upToEnd)

theorem Outcome.upToEnd_andThen {o : Outcome} {next : Expr → Cursor → Outcome}
    (h : ∀ e d, o = (.ok e, d) → next e d.upToEnd = (next e d).upToEnd) :
    o.upToEnd.andThen next = (o.andThen next).upToEnd := by
  obtain ⟨result, d⟩ := o
  cases result with
  | error err => rfl
  | ok e => exact h e d rfl

namespace Cursor

variable {c d : Cursor} {t : Token} {symbols : List Symbol}

theorem step?_upToEnd (h : c.step? = some (t, d)) (ht : t.kind ≠ .endOfInput) :
    c.upToEnd.step? = some (t, d.upToEnd) := by
  obtain ⟨htokens, hpast⟩ := step?_eq_past h
  have hcut : c.upToEnd.tokens = t :: beforeEnd d.tokens := by
    rw [upToEnd, htokens, beforeEnd_cons ht]
  rw [step?_of_tokens hcut, hpast]
  rfl

theorem take?_upToEnd (h : c.take? symbols = some (t, d)) :
    c.upToEnd.take? symbols = some (t, d.upToEnd) := by
  obtain ⟨hstep, hkind⟩ := take?_eq_some_iff.mp h
  have ht : t.kind ≠ .endOfInput := by
    intro hend
    simp [hend, Kind.isOneOf] at hkind
  exact take?_eq_some_iff.mpr ⟨step?_upToEnd hstep ht, hkind⟩

theorem take?_upToEnd_eq_none (h : c.take? symbols = none) : c.upToEnd.take? symbols = none := by
  rw [take?_eq_none_iff] at h ⊢
  intro t ht
  obtain ⟨rest, htokens, -⟩ := exists_eq_beforeEnd_append c.tokens
  refine h t ?_
  rw [htokens, List.head?_append, show (beforeEnd c.tokens).head? = some t from ht]
  rfl

theorem missingError_upToEnd (c : Cursor) : c.upToEnd.missingError = c.missingError := by
  unfold missingError upToEnd
  cases c.tokens with
  | nil => rfl
  | cons t rest =>
    by_cases hend : t.kind = .endOfInput
    · simp [beforeEnd, hend]
    · simp [beforeEnd_cons hend, hend]

theorem missing_upToEnd (c : Cursor) : c.upToEnd.missing = c.missing.upToEnd := by
  rw [missing, missingError_upToEnd]
  rfl

theorem literal_upToEnd {rest : List Token} (h : c.tokens = t :: rest)
    (ht : t.kind ≠ .endOfInput) : c.upToEnd.literal = c.literal.upToEnd := by
  have hstep := step?_of_tokens h
  simp only [literal, hstep, step?_upToEnd hstep ht]
  cases t.meaning with
  | ok v => rfl
  | error fault =>
    cases fault with
    | tooLarge => rfl
    | malformed => rfl

theorem atom_upToEnd (c : Cursor) : c.upToEnd.atom = c.atom.upToEnd := by
  unfold atom
  cases htokens : c.tokens with
  | nil =>
    have hcut : c.upToEnd.tokens = [] := by simp [upToEnd, htokens, beforeEnd]
    rw [hcut]
    exact missing_upToEnd c
  | cons t rest =>
    by_cases hend : t.kind = .endOfInput
    · have hcut : c.upToEnd.tokens = [] := by simp [upToEnd, htokens, beforeEnd, hend]
      simp only [hcut, hend, Kind.isLiteral]
      exact missing_upToEnd c
    · have hcut : c.upToEnd.tokens = t :: beforeEnd rest := by
        rw [upToEnd, htokens, beforeEnd_cons hend]
      simp only [hcut]
      split
      · exact literal_upToEnd htokens hend
      · exact missing_upToEnd c

theorem checkTrailing_upToEnd (c : Cursor) :
    c.upToEnd.checkTrailing.errors = c.checkTrailing.errors := by
  have herrors : c.upToEnd.errors = c.errors := rfl
  unfold checkTrailing
  rw [herrors]
  cases c.errors with
  | cons err errors => rfl
  | nil =>
    cases htokens : c.tokens with
    | nil => simp [upToEnd, htokens, beforeEnd]
    | cons t rest =>
      by_cases hend : t.kind = .endOfInput
      · simp [upToEnd, htokens, beforeEnd, hend]
      · simp [upToEnd, htokens, beforeEnd_cons hend, hend]

end Cursor

theorem parse_upToEnd (level : Level) (c : Cursor) :
    level.parse c.upToEnd = (level.parse c).upToEnd := by
  have hrules : ReadingRules (fun level c => level.parse c.upToEnd = (level.parse c).upToEnd)
      (fun tier left c => tier.chain left c.upToEnd = (tier.chain left c).upToEnd) :=
    { atom := by
        intro c hop
        rw [Level.parse_primary, Level.parse_primary, hop, Cursor.take?_upToEnd_eq_none hop]
        exact c.atom_upToEnd
      group := by
        intro c opening inside hop ih
        rw [Level.parse_primary, Level.parse_primary, hop, Cursor.take?_upToEnd hop]
        simp only [ih]
        refine Outcome.upToEnd_andThen ?_
        intro inner closing _
        cases hclose : closing.take? [.rightParen] with
        | none =>
          simp only [Cursor.take?_upToEnd_eq_none hclose]
          rfl
        | some p =>
          simp only [Cursor.take?_upToEnd hclose]
          rfl
      primary := by
        intro c hop ih
        rw [Level.parse_unary, Level.parse_unary, hop, Cursor.take?_upToEnd_eq_none hop]
        exact ih
      unary := by
        intro c op after hop ih
        rw [Level.parse_unary, Level.parse_unary, hop, Cursor.take?_upToEnd hop]
        simp only [ih]
        exact Outcome.upToEnd_andThen fun _ _ _ => rfl
      binary := by
        intro tier c ih ihchain
        rw [Level.parse_binary, Level.parse_binary, ih]
        exact Outcome.upToEnd_andThen ihchain
      stop := by
        intro tier left c hop
        rw [Tier.chain_eq, Tier.chain_eq, hop, Cursor.take?_upToEnd_eq_none hop]
        rfl
      link := by
        intro tier left c op after hop ih ihchain
        rw [Tier.chain_eq, Tier.chain_eq, hop, Cursor.take?_upToEnd hop]
        simp only [ih]
        exact Outcome.upToEnd_andThen ihchain }
  exact hrules.holds.1 level c

namespace Cursor

theorem parseAll_upToEnd (c : Cursor) : c.upToEnd.parseAll.1 = c.parseAll.1 := by
  unfold parseAll
  rw [parse_upToEnd]
  rcases Level.expression.parse c with ⟨result, d⟩
  cases result with
  | error err => rfl
  | ok e => simp only [Outcome.upToEnd, checkTrailing_upToEnd]

theorem parseAll_start_congr {ts us : List Token} (h : beforeEnd ts = beforeEnd us) :
    (start ts).parseAll.1 = (start us).parseAll.1 := by
  have hcut : (start ts).upToEnd = (start us).upToEnd := by
    simp only [upToEnd, start, h]
  rw [← parseAll_upToEnd (start ts), hcut, parseAll_upToEnd]

end Cursor

end ExpressionLanguage
