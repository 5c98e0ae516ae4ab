import ExpressionLanguage.Proofs.Execute.Stages
import ExpressionLanguage.Proofs.Grammar.Operators

namespace ExpressionLanguage

open Segment

def enclosed (ss : List Segment) : List Segment :=
  symbol .leftParen :: ss ++ [symbol .rightParen]

theorem Segment.endsBefore_symbol {s : Symbol}
    (h : Symbol.ofChars? (s.lexeme.toList ++ ['=']) = none) (rest : List Char) :
    (symbol s).EndsBefore rest := by
  intro c _
  by_cases hc : c = '='
  · exact hc ▸ h
  · exact Symbol.ofChars?_append_eq_none hc

theorem written_enclosed (ss : List Segment) :
    written (enclosed ss) = '(' :: written ss ++ [')'] := by
  rw [enclosed, written_append]
  rfl

theorem getLast?_enclosed (ss : List Segment) :
    (enclosed ss).getLast? = some (symbol .rightParen) :=
  List.getLast?_concat

theorem lastLine_enclosed (line : Nat) (ss : List Segment) :
    lastLine line (enclosed ss) = lastLine line ss := by
  rw [enclosed, lastLine_append]
  rfl

theorem isFault_enclosed {ss : List Segment} (h : ∀ s ∈ ss, s.isFault = false) :
    ∀ s ∈ enclosed ss, s.isFault = false := by
  simpa [enclosed, isFault, or_imp, forall_and] using h

theorem Legible.enclosed {ss : List Segment} (h : Legible ss)
    (hfault : ∀ s ∈ ss, s.isFault = false) : Legible (enclosed ss) := by
  have hclose : Legible [symbol .rightParen] := ⟨trivial, endsBefore_symbol rfl _, trivial⟩
  refine ⟨trivial, endsBefore_symbol rfl _, h.append_separated hclose ?_ ?_ ?_⟩
  · intro c hc
    obtain rfl : ')' = c := by simpa [chars, Symbol.lexeme] using hc
    decide
  · intro _ _ c hc
    obtain rfl : ')' = c := by simpa [chars, Symbol.lexeme] using hc
    decide
  · intro body hbody
    simpa [isFault] using hfault _ hbody

theorem Derives.enclosed {line : Nat} {ss : List Segment} {e : Expr}
    (h : Derives .expression (tokensFrom line ss) e) :
    Derives .unary (tokensFrom line (enclosed ss)) (.group e) := by
  rw [ExpressionLanguage.enclosed, tokensFrom_append, tokensFrom_cons]
  exact .primary (.group rfl h rfl)

theorem Legible.enclosed_append {xs ys : List Segment} (hx : Legible xs)
    (hfault : ∀ s ∈ xs, s.isFault = false) (hy : Legible ys)
    (hdigit : ∀ c ∈ (written ys).head?, c.isDigit = false) :
    Legible (ExpressionLanguage.enclosed xs ++ ys) := by
  refine (hx.enclosed hfault).append hy ?_ hdigit
  intro s hs
  obtain rfl : symbol .rightParen = s := by simpa [getLast?_enclosed] using hs
  exact endsBefore_symbol rfl _

theorem Legible.symbol_enclosed {ss : List Segment} (h : Legible ss)
    (hfault : ∀ s ∈ ss, s.isFault = false) (s : Symbol) :
    Legible (symbol s :: ExpressionLanguage.enclosed ss) := by
  refine ⟨trivial, ?_, h.enclosed hfault⟩
  intro c hc
  obtain rfl : '(' = c := by simpa [written_enclosed] using hc
  exact Symbol.ofChars?_append_eq_none (by decide)

theorem Derives.moved {level : Level} {ss : List Segment} {e : Expr}
    (h : Derives level (tokensFrom 1 ss) e) (n : Nat) :
    Derives level (tokensFrom (1 + n) ss) (e.mapLines (· + n)) := by
  rw [tokensFrom_add]
  exact h.mapLines _

theorem execute_binary {a b : String} {va vb : Value} (ha : (execute a).result = .ok va)
    (hb : (execute b).result = .ok vb) {s : Symbol} (hs : s ∈ Level.binaryOperators) :
    (execute ("(" ++ a ++ ")" ++ s.lexeme ++ "(" ++ b ++ ")")).result =
      (applyBinary va ⟨.symbol s, s.lexeme, 1 + outerLineFeeds false a.toList⟩ vb).mapError
        .runtime := by
  obtain ⟨hfa, ea, hda, hva⟩ := derives_of_execute ha
  obtain ⟨hfb, eb, hdb, hvb⟩ := derives_of_execute hb
  have hla := legible_segments a.toList
  have hlb := legible_segments b.toList
  have hline := lastLine_segments 1 a.toList
  generalize outerLineFeeds false a.toList = n at hline ⊢
  let op : Token := ⟨.symbol s, s.lexeme, 1 + n⟩
  have hvb' : (eb.mapLines (· + n)).eval = .ok vb := by
    rw [Expr.eval_mapLines, hvb]
    rfl
  have hwhole : Derives .expression
      (tokensFrom 1 (enclosed (segments a.toList) ++ symbol s :: enclosed (segments b.toList)))
      (.binary (.group ea) op (.group (eb.mapLines (· + n)))) := by
    rw [tokensFrom_append, lastLine_enclosed, hline]
    exact hda.enclosed.binary_of_unary hs rfl (hdb.moved n).enclosed
  have hlegible := hla.enclosed_append hfa (hlb.symbol_enclosed hfb s)
    fun c hc => (opensPunctuation_written s _ c hc).2.2.1
  rw [execute_of_derives hlegible ?_ ?_ hwhole]
  · simp only [Expr.eval, hva, hvb', Except.bind, op]
  · simp [written_enclosed, chars]
  · refine List.forall_mem_append.mpr ⟨isFault_enclosed hfa, ?_⟩
    exact List.forall_mem_cons.mpr ⟨rfl, isFault_enclosed hfb⟩

theorem execute_unary {a : String} {va : Value} (ha : (execute a).result = .ok va) {s : Symbol}
    (hs : s ∈ Level.unaryOperators) :
    (execute (s.lexeme ++ "(" ++ a ++ ")")).result =
      (applyUnary ⟨.symbol s, s.lexeme, 1⟩ va).mapError .runtime := by
  obtain ⟨hfa, ea, hda, hva⟩ := derives_of_execute ha
  have hla := legible_segments a.toList
  let op : Token := ⟨.symbol s, s.lexeme, 1⟩
  have hkind : op.kind.isOneOf Level.unaryOperators = true := Kind.isOneOf_iff.mpr ⟨s, hs, rfl⟩
  have hwhole : Derives .expression (tokensFrom 1 (symbol s :: enclosed (segments a.toList)))
      (.unary op (.group ea)) :=
    (Derives.of_unary hkind hda.enclosed).expression_of_unary
  rw [execute_of_derives (hla.symbol_enclosed hfa s) ?_ ?_ hwhole]
  · simp only [Expr.eval, hva, Except.bind, op]
  · simp [written_enclosed, chars]
  · exact List.forall_mem_cons.mpr ⟨rfl, isFault_enclosed hfa⟩

theorem execute_compositional (a : String) (va : Value) (ha : (execute a).result = .ok va) :
    (∀ (b : String) (vb : Value), (execute b).result = .ok vb → ∀ s ∈ Level.binaryOperators,
      (execute ("(" ++ a ++ ")" ++ s.lexeme ++ "(" ++ b ++ ")")).result =
        (applyBinary va ⟨.symbol s, s.lexeme, 1 + outerLineFeeds false a.toList⟩ vb).mapError
          .runtime) ∧
    ∀ s ∈ Level.unaryOperators,
      (execute (s.lexeme ++ "(" ++ a ++ ")")).result =
        (applyUnary ⟨.symbol s, s.lexeme, 1⟩ va).mapError .runtime :=
  ⟨fun _ _ hb _ hs => execute_binary ha hb hs, fun _ hs => execute_unary ha hs⟩

theorem execute_compositional_lineFeeds :
    (execute "\"\n\"\n").result = .ok (.string "\n") ∧ (execute "null").result = .ok .null ∧
    (execute "(\"\n\"\n)+(null)").result =
      .error (.runtime (.operandNotNumber .left "+" .string 2)) ∧
    (execute "(\"\n\"\n)!=(null)").result = .ok (.boolean true) ∧
    (execute "!(\"\n\"\n)").result =
      .error (.runtime (.invalidUnaryOperand "!" .string 1)) := by
  have hquoted : Legible [text ['\n'], blank ['\n']] := by
    simp [Legible, WellFormed, EndsBefore, Text.isBlank_lineFeed]
  have ha : (execute "\"\n\"\n").result = .ok (.string "\n") :=
    execute_of_derives (e := .literal (.string "\n")) hquoted rfl (by simp [isFault])
      (Derives.primary (.of_meaning rfl)).expression_of_unary
  obtain ⟨hbinary, hunary⟩ := execute_compositional _ _ ha
  exact ⟨ha, execute_null, hbinary _ _ execute_null .plus (by decide),
    hbinary _ _ execute_null .bangEqual (by decide), hunary .bang (by decide)⟩

end ExpressionLanguage
