import ExpressionLanguage.Grammar.Whole
import ExpressionLanguage.Proofs.Expr.Relining
import ExpressionLanguage.Proofs.Grammar.Induction

/-!
Parsing on other lines. Two cursors over the same tokens, one of them with mapped lines, stay in
step through every rule of the grammar and every recovery. The line that a cursor starts with has no
token to be mapped with; it shows in an error only where the end of input is the first thing found.
-/

namespace ExpressionLanguage

variable {f : Nat → Nat}

/-- The same tokens and errors on mapped lines. The line last read from matters only at the end. -/
structure Cursor.Relined (f : Nat → Nat) (c c' : Cursor) : Prop where
  tokens : c'.tokens = c.tokens.map (Token.mapLine f)
  errors : c'.errors = c.errors.map (ParseError.mapLine f)
  lastLine : AtEnd c.tokens → c'.lastLine = f c.lastLine

structure Outcome.Relined (f : Nat → Nat) (o o' : Outcome) : Prop where
  result : o'.1 = (o.1.map (Expr.mapLines f)).mapError (ParseError.mapLine f)
  cursor : Cursor.Relined f o.2 o'.2

theorem Outcome.Relined.andThen {o o' : Outcome} {next next' : Expr → Cursor → Outcome}
    (h : Relined f o o')
    (hnext : ∀ e d d', o = (.ok e, d) → Cursor.Relined f d d' →
      Relined f (next e d) (next' (e.mapLines f) d')) :
    Relined f (o.andThen next) (o'.andThen next') := by
  obtain ⟨result, d⟩ := o
  obtain ⟨result', d'⟩ := o'
  obtain ⟨hresult, hcursor⟩ := h
  cases result with
  | error err =>
    obtain rfl : result' = .error (err.mapLine f) := hresult
    exact ⟨rfl, hcursor⟩
  | ok e =>
    obtain rfl : result' = .ok (e.mapLines f) := hresult
    exact hnext e d d' rfl hcursor

namespace Cursor.Relined

variable {c c' d : Cursor} {t : Token} {symbols : List Symbol}

theorem step? (h : Relined f c c') (hstep : c.step? = some (t, d)) :
    ∃ d', c'.step? = some (t.mapLine f, d') ∧ Relined f d d' := by
  obtain ⟨htokens, hd⟩ := step?_eq_past hstep
  have htokens' : c'.tokens = t.mapLine f :: d.tokens.map (Token.mapLine f) := by
    rw [h.tokens, htokens, List.map_cons]
  refine ⟨_, step?_of_tokens htokens', ?_⟩
  rw [hd]
  exact ⟨rfl, h.errors, fun _ => rfl⟩

theorem take? (h : Relined f c c') (htake : c.take? symbols = some (t, d)) :
    ∃ d', c'.take? symbols = some (t.mapLine f, d') ∧ Relined f d d' := by
  obtain ⟨hstep, hkind⟩ := take?_eq_some_iff.mp htake
  obtain ⟨d', hstep', hd⟩ := h.step? hstep
  exact ⟨d', take?_eq_some_iff.mpr ⟨hstep', hkind⟩, hd⟩

theorem take?_eq_none (h : Relined f c c') (hnone : c.take? symbols = none) :
    c'.take? symbols = none := by
  rw [take?_eq_none_iff] at hnone ⊢
  rw [h.tokens, List.head?_map]
  intro t ht
  obtain ⟨u, hu, rfl⟩ := Option.map_eq_some_iff.mp ht
  exact hnone u hu

theorem record (h : Relined f c c') (err : ParseError) :
    Relined f (c.record err) (c'.record (err.mapLine f)) where
  tokens := h.tokens
  errors := by simp [h.errors]
  lastLine := h.lastLine

theorem missingError (h : Relined f c c') : c'.missingError = c.missingError.mapLine f := by
  have hline := h.lastLine
  unfold Cursor.missingError
  rw [h.tokens]
  cases htokens : c.tokens with
  | nil =>
    rw [htokens] at hline
    simp [ParseError.mapLine, hline (by simp [AtEnd])]
  | cons t rest =>
    rw [htokens] at hline
    simp only [List.map_cons]
    by_cases hend : t.kind = .endOfInput
    · rw [if_pos hend, if_pos (show (t.mapLine f).kind = .endOfInput from hend),
        hline (by simp [AtEnd, hend])]
      rfl
    · rw [if_neg hend, if_neg (show (t.mapLine f).kind ≠ .endOfInput from hend)]
      rfl

theorem missing (h : Relined f c c') : Outcome.Relined f c.missing c'.missing where
  result := rfl
  cursor := by
    rw [Cursor.missing, Cursor.missing, h.missingError]
    exact h.record _

theorem literal (h : Relined f c c') : Outcome.Relined f c.literal c'.literal := by
  unfold Cursor.literal
  cases hstep : c.step? with
  | none =>
    have htokens : c.tokens = [] := by
      cases htokens : c.tokens with
      | nil => rfl
      | cons t rest => simp [step?_of_tokens htokens] at hstep
    have hstep' : c'.step? = none := by simp [Cursor.step?, h.tokens, htokens]
    simp only [hstep']
    exact h.missing
  | some p =>
    obtain ⟨t, d⟩ := p
    obtain ⟨d', hstep', hd⟩ := h.step? hstep
    have hmeaning : (t.mapLine f).meaning = t.meaning := rfl
    simp only [hstep', hmeaning]
    cases t.meaning with
    | ok v => exact ⟨rfl, hd⟩
    | error fault =>
      cases fault with
      | tooLarge => exact ⟨rfl, hd.record _⟩
      | malformed => exact ⟨rfl, hd⟩

theorem atom (h : Relined f c c') : Outcome.Relined f c.atom c'.atom := by
  unfold Cursor.atom
  rw [h.tokens]
  cases c.tokens with
  | nil => exact h.missing
  | cons t rest =>
    simp only [List.map_cons]
    by_cases hliteral : t.kind.isLiteral = true
    · rw [if_pos hliteral, if_pos (show (t.mapLine f).kind.isLiteral = true from hliteral)]
      exact h.literal
    · rw [if_neg hliteral, if_neg (show ¬ (t.mapLine f).kind.isLiteral = true from hliteral)]
      exact h.missing

theorem checkTrailing (h : Relined f c c') : Relined f c.checkTrailing c'.checkTrailing := by
  unfold Cursor.checkTrailing
  rw [h.errors, h.tokens]
  cases c.errors with
  | cons err errors => exact h
  | nil =>
    cases c.tokens with
    | nil => exact h
    | cons t rest =>
      simp only [List.map_nil, List.map_cons]
      by_cases hend : t.kind = .endOfInput
      · rw [if_pos hend, if_pos (show (t.mapLine f).kind = .endOfInput from hend)]
        exact h
      · rw [if_neg hend, if_neg (show (t.mapLine f).kind ≠ .endOfInput from hend)]
        exact h.record (.unexpectedTrailingToken t.lexeme t.line)

end Cursor.Relined

def RelinedLevel (f : Nat → Nat) (level : Level) (c : Cursor) : Prop :=
  ∀ c', c.Relined f c' → Outcome.Relined f (level.parse c) (level.parse c')

def RelinedChain (f : Nat → Nat) (tier : Tier) (left : Expr) (c : Cursor) : Prop :=
  ∀ c', c.Relined f c' →
    Outcome.Relined f (tier.chain left c) (tier.chain (left.mapLines f) c')

theorem relined_group {c inside : Cursor} {opening : Token}
    (hop : c.take? [.leftParen] = some (opening, inside)) (ih : RelinedLevel f .expression inside) :
    RelinedLevel f .primary c := by
  intro c' h
  obtain ⟨inside', hop', hinside⟩ := h.take? hop
  rw [Level.parse_primary, Level.parse_primary, hop, hop']
  refine (ih inside' hinside).andThen ?_
  intro inner closing closing' _ hclosing
  cases hclose : closing.take? [.rightParen] with
  | none =>
    simp only [hclosing.take?_eq_none hclose]
    exact ⟨rfl, hclosing⟩
  | some p =>
    obtain ⟨after', hclose', hafter⟩ := hclosing.take? hclose
    simp only [hclose']
    exact ⟨rfl, hafter⟩

theorem relined_unary {c after : Cursor} {op : Token}
    (hop : c.take? Level.unaryOperators = some (op, after)) (ih : RelinedLevel f .unary after) :
    RelinedLevel f .unary c := by
  intro c' h
  obtain ⟨after', hop', hafter⟩ := h.take? hop
  rw [Level.parse_unary, Level.parse_unary, hop, hop']
  refine (ih after' hafter).andThen ?_
  intro operand rest rest' _ hrest
  exact ⟨rfl, hrest⟩

theorem relined_binary {tier : Tier} {c : Cursor} (ih : RelinedLevel f tier.operand c)
    (ihchain : ∀ left rest, tier.operand.parse c = (.ok left, rest) →
      RelinedChain f tier left rest) : RelinedLevel f (.binary tier) c := by
  intro c' h
  rw [Level.parse_binary, Level.parse_binary]
  exact (ih c' h).andThen fun left rest rest' hleft hrest => ihchain left rest hleft rest' hrest

theorem relined_link {tier : Tier} {left : Expr} {c after : Cursor} {op : Token}
    (hop : c.take? tier.operators = some (op, after)) (ih : RelinedLevel f tier.operand after)
    (ihchain : ∀ right rest, tier.operand.parse after = (.ok right, rest) →
      RelinedChain f tier (.binary left op right) rest) : RelinedChain f tier left c := by
  intro c' h
  obtain ⟨after', hop', hafter⟩ := h.take? hop
  rw [Tier.chain_eq, Tier.chain_eq, hop, hop']
  refine (ih after' hafter).andThen ?_
  intro right rest rest' hright hrest
  exact ihchain right rest hright rest' hrest

theorem relined_parse (f : Nat → Nat) (level : Level) (c : Cursor) : RelinedLevel f level c := by
  have hrules : ReadingRules (RelinedLevel f) (RelinedChain f) :=
    { atom := by
        intro c hop c' h
        rw [Level.parse_primary, Level.parse_primary, hop, h.take?_eq_none hop]
        exact h.atom
      group := fun _ _ _ hop ih => relined_group hop ih
      primary := by
        intro c hop ih c' h
        rw [Level.parse_unary, Level.parse_unary, hop, h.take?_eq_none hop]
        exact ih c' h
      unary := fun _ _ _ hop ih => relined_unary hop ih
      binary := fun _ _ ih ihchain => relined_binary ih ihchain
      stop := by
        intro tier left c hop c' h
        rw [Tier.chain_eq, Tier.chain_eq, hop, h.take?_eq_none hop]
        exact ⟨rfl, h⟩
      link := fun _ _ _ _ _ hop ih ihchain => relined_link hop ih ihchain }
  exact hrules.holds.1 level c

namespace Cursor

theorem Relined.parseAll {c c' : Cursor} (h : c.Relined f c') :
    c'.parseAll.1 =
      (c.parseAll.1.map (Expr.mapLines f)).mapError (List.map (ParseError.mapLine f)) := by
  obtain ⟨hresult, hcursor⟩ := relined_parse f .expression c c' h
  unfold Cursor.parseAll
  rcases hparse : Level.expression.parse c with ⟨result, d⟩
  rcases hparse' : Level.expression.parse c' with ⟨result', d'⟩
  rw [hparse, hparse'] at hresult hcursor
  cases result with
  | error err =>
    obtain rfl : result' = .error (err.mapLine f) := hresult
    have herrors : (d'.record (err.mapLine f)).errors =
        (d.record err).errors.map (ParseError.mapLine f) := (hcursor.record err).errors
    simp only [herrors]
    rfl
  | ok e =>
    obtain rfl : result' = .ok (e.mapLines f) := hresult
    simp only [hcursor.checkTrailing.errors, List.isEmpty_map]
    split
    · rfl
    · rfl

theorem relined_start (tokens : List Token) (h : AtEnd tokens → f 1 = 1) :
    (start tokens).Relined f (start (tokens.map (Token.mapLine f))) :=
  ⟨rfl, rfl, fun hend => (h hend).symm⟩

end Cursor

end ExpressionLanguage
