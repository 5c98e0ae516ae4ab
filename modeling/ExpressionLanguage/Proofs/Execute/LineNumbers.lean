import ExpressionLanguage.Proofs.Execute.Stages
import ExpressionLanguage.Proofs.Grammar.Equivariance
import ExpressionLanguage.Proofs.Grammar.Operators

namespace ExpressionLanguage

def Failure.mapLine (f : Nat → Nat) : Failure → Failure
  | scan errors => scan (errors.map (ScanError.mapLine f))
  | parse errors => parse (errors.map (ParseError.mapLine f))
  | runtime error => runtime (error.mapLine f)

theorem evaluate_mapLines (f : Nat → Nat) (e : Expr) :
    evaluate (e.mapLines f) = (evaluate e).mapError (Failure.mapLine f) := by
  rw [evaluate, evaluate, Expr.eval_mapLines]
  cases e.eval with
  | ok v => rfl
  | error r => rfl

theorem execute_of_scan {source : String} (h : (scan source).errors = []) :
    (execute source).result =
      ((Cursor.start (scan source).tokens).parseAll.1.mapError .parse).bind evaluate := by
  rw [execute, treeOf_result, if_pos h]

theorem execute_mapLine {source : String} {f : Nat → Nat} (h : (scan source).errors = [])
    (hline : f 1 = 1) :
    (execute source).result.mapError (Failure.mapLine f) =
      ((Cursor.start ((scan source).tokens.map (Token.mapLine f))).parseAll.1.mapError
        .parse).bind evaluate := by
  have hstart := Cursor.relined_start (scan source).tokens fun _ => hline
  rw [hstart.parseAll, execute_of_scan h]
  cases (Cursor.start (scan source).tokens).parseAll.1 with
  | error errors => rfl
  | ok e => exact (evaluate_mapLines f e).symm

theorem map_mapLine_const {ts us : List Token} (line : Nat)
    (h : ts.map (fun t => (t.kind, t.lexeme)) = us.map fun t => (t.kind, t.lexeme)) :
    ts.map (Token.mapLine fun _ => line) = us.map (Token.mapLine fun _ => line) := by
  have hplace := congrArg (List.map fun p : Kind × String => Token.mk p.1 p.2 line) h
  rw [List.map_map, List.map_map] at hplace
  exact hplace

theorem lines_never_consulted :
    (∀ (f : Nat → Nat) (t : Token) (ts : List Token), t.kind ≠ .endOfInput →
      (Cursor.start ((t :: ts).map (Token.mapLine f))).parseAll.1 =
        ((Cursor.start (t :: ts)).parseAll.1.map (Expr.mapLines f)).mapError
          (List.map (ParseError.mapLine f))) ∧
    (∀ (f : Nat → Nat) (e : Expr),
      (e.mapLines f).eval = e.eval.mapError (RuntimeError.mapLine f)) ∧
    ∀ a b : String, (scan a).errors = [] → (scan b).errors = [] →
      (scan a).tokens.map (fun t => (t.kind, t.lexeme)) =
        (scan b).tokens.map (fun t => (t.kind, t.lexeme)) →
      (execute a).result.mapError (Failure.mapLine fun _ => 1) =
        (execute b).result.mapError (Failure.mapLine fun _ => 1) := by
  refine ⟨?_, Expr.eval_mapLines, ?_⟩
  · intro f t ts hkind
    refine (Cursor.relined_start (t :: ts) ?_).parseAll
    intro hend
    exact absurd (hend t rfl) hkind
  · intro a b ha hb htokens
    rw [execute_mapLine ha rfl, execute_mapLine hb rfl, map_mapLine_const 1 htokens]

def loneMinus : Token :=
  ⟨.symbol .minus, "-", 4⟩

theorem parse_loneMinus :
    (Cursor.start [loneMinus]).parseAll.1 = .error [.expectedExpression "end of input" 4] := by
  let after := (Cursor.start [loneMinus]).past [loneMinus] []
  let final := after.record (.expectedExpression "end of input" 4)
  have hoperand : Level.unary.parse after = (.ok (.literal .null), final) := by
    rw [Level.parse_unary, Level.parse_primary]
    rfl
  have hop : (Cursor.start [loneMinus]).take? Level.unaryOperators = some (loneMinus, after) := rfl
  have hunary : Level.unary.parse (.start [loneMinus]) =
      (.ok (.unary loneMinus (.literal .null)), final) := by
    rw [Level.parse_unary, hop]
    simp only [hoperand, Outcome.andThen]
  have hparse := Level.expression_parse_of_unary hunary (by simp [AtEnd, final, after])
  rw [Cursor.parseAll, hparse]
  rfl

/-- The error of the first list is about the end of input, on the line of the token before it. -/
theorem lines_never_consulted_loneMinus :
    loneMinus.kind ≠ .endOfInput ∧
    (Cursor.start [loneMinus.mapLine (· * 10)]).parseAll.1 =
      .error [.expectedExpression "end of input" 40] ∧
    (scan "\n-null").errors = [] ∧ (scan "-null").errors = [] ∧
    (execute "\n-null").result = .error (.runtime (.invalidUnaryOperand "-" .null 2)) ∧
    (execute "-null").result.mapError (Failure.mapLine fun _ => 1) =
      .error (.runtime (.invalidUnaryOperand "-" .null 1)) := by
  have hword : (Segment.word "null".toList).WellFormed :=
    ⟨'n', "ull".toList, rfl, by decide, List.all_eq_true.mp (by decide)⟩
  have hnull : Legible [.symbol .minus, .word "null".toList] := by
    refine ⟨trivial, ?_, hword, by simp [Segment.EndsBefore], trivial⟩
    simp [Segment.EndsBefore, Segment.chars, Symbol.ofChars?_append_eq_none]
  have hfed : Legible [.blank ['\n'], .symbol .minus, .word "null".toList] := by
    refine ⟨by simp [Segment.WellFormed, Text.isBlank_lineFeed], ?_, hnull⟩
    intro c hc
    obtain rfl : '-' = c := by simpa [Segment.chars, Symbol.lexeme] using hc
    decide
  have hsegments : segments "-null".toList = _ := segments_eq_iff.mpr ⟨hnull, rfl⟩
  have hsegments' : segments "\n-null".toList = _ := segments_eq_iff.mpr ⟨hfed, rfl⟩
  have hclean : (scan "-null").errors = [] := by
    rw [scan_errors, hsegments]
    rfl
  have hclean' : (scan "\n-null").errors = [] := by
    rw [scan_errors, hsegments']
    rfl
  have htokens : (scan "\n-null").tokens.map (fun t => (t.kind, t.lexeme)) =
      (scan "-null").tokens.map fun t => (t.kind, t.lexeme) := by
    rw [scan_tokens, scan_tokens, hsegments, hsegments']
    rfl
  have hresult : (execute "\n-null").result =
      .error (.runtime (.invalidUnaryOperand "-" .null 2)) :=
    execute_of_derives (e := .unary ⟨.symbol .minus, "-", 2⟩ (.literal .null)) hfed rfl
      (by simp [Segment.isFault])
      (Derives.unary (.inl rfl) (.primary (.of_meaning rfl))).expression_of_unary
  obtain ⟨hparse, -, hexecute⟩ := lines_never_consulted
  have hmapped := hparse (· * 10) loneMinus [] (by decide)
  have hlines := hexecute "\n-null" "-null" hclean' hclean htokens
  rw [parse_loneMinus] at hmapped
  rw [hresult] at hlines
  exact ⟨by decide, hmapped, hclean', hclean, hresult, hlines.symm⟩

end ExpressionLanguage
