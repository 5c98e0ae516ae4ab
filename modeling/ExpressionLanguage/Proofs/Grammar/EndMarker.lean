import ExpressionLanguage.Proofs.Grammar.Atoms
import ExpressionLanguage.Proofs.Grammar.EndOfInput
import ExpressionLanguage.Proofs.Grammar.Exactness

namespace ExpressionLanguage

namespace Cursor

theorem whole_parse_upToEnd (c : Cursor) : c.upToEnd.parse = c.parse := by
  unfold parse
  rw [parse_upToEnd]
  rcases Level.expression.parse c with ⟨result, d⟩
  cases result with
  | error err => rfl
  | ok e => simp only [Outcome.upToEnd, checkTrailing_upToEnd]

theorem tokens_parse_upToEnd (level : Level) {c : Cursor} {rest : List Token}
    (htokens : c.tokens = beforeEnd c.tokens ++ rest) :
    ∃ consumed, beforeEnd c.tokens = consumed ++ (level.parse c.upToEnd).2.tokens ∧
      (level.parse c).2.tokens = (level.parse c.upToEnd).2.tokens ++ rest := by
  obtain ⟨w, hw⟩ := Crosses.parse level c
  have hbare : (level.parse c.upToEnd).2.tokens = beforeEnd (level.parse c).2.tokens := by
    rw [parse_upToEnd]
    rfl
  have hbefore : beforeEnd c.tokens = w ++ (level.parse c.upToEnd).2.tokens := by
    rw [hbare, hw.tokens, beforeEnd_append hw.kinds]
  refine ⟨w, hbefore, ?_⟩
  rw [hbefore, List.append_assoc] at htokens
  exact List.append_cancel_left (hw.tokens.symm.trans htokens)

theorem upToEnd_start {w v : List Token} {z : Token} (hw : ∀ t ∈ w, t.kind ≠ .endOfInput)
    (hz : z.kind = .endOfInput) : (start (w ++ [z] ++ v)).upToEnd = start w := by
  have hend : AtEnd (z :: v) := by simpa [AtEnd] using hz
  have hbefore : beforeEnd (w ++ [z] ++ v) = w := by
    rw [List.append_assoc, List.singleton_append, beforeEnd_append hw, hend.beforeEnd_eq_nil,
      List.append_nil]
  simp only [upToEnd, start, hbefore]

end Cursor

theorem end_marker_is_end (w v : List Token) (z : Token) (hw : ∀ t ∈ w, t.kind ≠ .endOfInput)
    (hz : z.kind = .endOfInput) :
    let bare := Cursor.start w
    let marked := Cursor.start (w ++ [z] ++ v)
    marked.parse = bare.parse ∧ marked.parseAll.1 = bare.parseAll.1 ∧
    ∀ level : Level,
      (level.parse marked).1 = (level.parse bare).1 ∧
      (level.parse marked).2.errors = (level.parse bare).2.errors ∧
      (level.parse marked).2.lastLine = (level.parse bare).2.lastLine ∧
      ∃ consumed, w = consumed ++ (level.parse bare).2.tokens ∧
        w ++ [z] ++ v = consumed ++ (level.parse marked).2.tokens := by
  intro bare marked
  have hcut : marked.upToEnd = bare := Cursor.upToEnd_start hw hz
  have hbefore : beforeEnd marked.tokens = w := congrArg Cursor.tokens hcut
  refine ⟨?_, ?_, ?_⟩
  · rw [← hcut, Cursor.whole_parse_upToEnd]
  · rw [← hcut, Cursor.parseAll_upToEnd]
  · intro level
    have hparse : level.parse bare = (level.parse marked).upToEnd := by
      rw [← hcut, parse_upToEnd]
    have htokens : marked.tokens = beforeEnd marked.tokens ++ ([z] ++ v) := by
      rw [hbefore, ← List.append_assoc]
      rfl
    obtain ⟨consumed, hconsumed, hrest⟩ := Cursor.tokens_parse_upToEnd level htokens
    rw [hbefore, hcut] at hconsumed
    rw [hcut] at hrest
    have hmarked : w ++ [z] ++ v = consumed ++ (level.parse marked).2.tokens := by
      rw [hrest, ← List.append_assoc consumed, ← hconsumed, List.append_assoc]
    rw [hparse] at hconsumed ⊢
    exact ⟨rfl, rfl, rfl, consumed, hconsumed, hmarked⟩

def loneOpening : Token :=
  ⟨.symbol .leftParen, "(", 4⟩

/-- The group would be filled and closed behind the end of input, which stands on line 9. -/
theorem end_marker_is_end_closedBehind :
    let behind : List Token := [⟨.integer, "1", 9⟩, ⟨.symbol .rightParen, ")", 9⟩]
    let marked := Cursor.start ([loneOpening] ++ [⟨.endOfInput, "end", 9⟩] ++ behind)
    (∀ t ∈ [loneOpening], t.kind ≠ .endOfInput) ∧
    marked.parse = .error (.unterminatedGroup 4) ∧
    marked.parseAll.1 =
      .error [.expectedExpression "end of input" 4, .unterminatedGroup 4] ∧
    (Level.expression.parse marked).2.errors = [.expectedExpression "end of input" 4] := by
  intro behind marked
  have hkinds : ∀ t ∈ [loneOpening], t.kind ≠ .endOfInput := by decide
  obtain ⟨d, hparse, herrors⟩ : ∃ d, Level.expression.parse (.start [loneOpening]) =
      (.error (.unterminatedGroup 4), d) ∧ d.errors = [.expectedExpression "end of input" 4] :=
    Level.parse_loneOpening (.start [loneOpening]) loneOpening rfl rfl
  obtain ⟨hwhole, hall, hlevel⟩ :=
    end_marker_is_end [loneOpening] behind ⟨.endOfInput, "end", 9⟩ hkinds rfl
  refine ⟨hkinds, ?_, ?_, ?_⟩
  · rw [hwhole, Cursor.parse, hparse]
  · rw [hall, Cursor.parseAll, hparse]
    simp [herrors]
  · rw [(hlevel .expression).2.1, hparse, herrors]

end ExpressionLanguage
