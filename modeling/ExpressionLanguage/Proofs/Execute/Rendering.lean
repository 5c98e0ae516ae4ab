import ExpressionLanguage.Proofs.Execute.Composition
import ExpressionLanguage.Proofs.Expr.Inference
import ExpressionLanguage.Proofs.Numeral.Integer

namespace ExpressionLanguage

open Segment Text

def Token.IsOperator (symbols : List Symbol) (t : Token) : Prop :=
  ∃ s ∈ symbols, t.kind = .symbol s ∧ t.lexeme = s.lexeme

def Value.Plain : Value → Prop
  | integer n => n ≠ Int64.minValue
  | boolean _ | null => True
  | string _ | float _ => False

def Expr.Plain : Expr → Prop
  | literal value => value.Plain
  | group inner => inner.Plain
  | unary operator operand => operator.IsOperator Level.unaryOperators ∧ operand.Plain
  | binary left operator right =>
      left.Plain ∧ operator.IsOperator Level.binaryOperators ∧ right.Plain

def Expr.reread : Expr → Expr
  | literal (.integer n) =>
      if n.toInt < 0 then unary (.fixed (.symbol .minus) 1) (literal (.integer (-n)))
      else literal (.integer n)
  | literal value => literal value
  | group inner => group inner.reread
  | unary operator operand => group (unary (operator.mapLine fun _ => 1) operand.reread)
  | binary left operator right =>
      group (binary left.reread (operator.mapLine fun _ => 1) right.reread)

/-- The segments `ss` are those of a text on one line, whose ends no neighbour can extend, and
their tokens derive the tree `e`. -/
structure Reads (text : String) (level : Level) (ss : List Segment) (e : Expr) : Prop where
  written : written ss = text.toList
  legible : Legible ss
  sound : ∀ s ∈ ss, s.isFault = false
  line : lastLine 1 ss = 1
  first : ∃ c cs, text.toList = c :: cs ∧ isBlank c = false ∧ c ≠ '='
  last : ∃ init s, ss = init ++ [s] ∧ ∀ run, s ≠ blank run
  derives : Derives level (tokensFrom 1 ss) e

theorem Symbol.first_unary {s : Symbol} (h : s ∈ Level.unaryOperators) :
    ∃ c, s.lexeme.toList = [c] ∧ isBlank c = false ∧ c ≠ '=' := by
  cases s with
  | minus => exact ⟨'-', by decide⟩
  | bang => exact ⟨'!', by decide⟩
  | _ => exact absurd h (by decide)

theorem legible_spaced {s : Symbol} {ss : List Segment} {c : Char} {cs : List Char}
    (h : Legible ss) (hss : written ss = c :: cs) (hc : isBlank c = false) :
    Legible (blank [' '] :: symbol s :: blank [' '] :: ss) := by
  have hspace : (blank [' ']).WellFormed := by simp [WellFormed, isBlank_space]
  refine ⟨hspace, ?_, trivial, ?_, hspace, ?_, h⟩
  · intro d hd
    exact (opensPunctuation_written s _ d hd).1
  · intro d hd
    obtain rfl : ' ' = d := by simpa [chars] using hd
    exact Symbol.ofChars?_append_eq_none (by decide)
  · intro d hd
    obtain rfl : c = d := by simpa [hss] using hd
    exact hc

namespace Reads

variable {text left right : String} {xs ys ss : List Segment} {e l r : Expr}

theorem execute (h : Reads text .expression ss e) :
    (execute text).result = e.eval.mapError .runtime :=
  execute_of_derives h.legible h.written.symm h.sound h.derives

theorem expression (h : Reads text .unary ss e) : Reads text .expression ss e :=
  { h with derives := h.derives.expression_of_unary }

theorem enclosed (h : Reads text .expression ss e) :
    Reads ("(" ++ text ++ ")") .unary (enclosed ss) (.group e) where
  written := by simp [written_enclosed, h.written]
  legible := h.legible.enclosed h.sound
  sound := isFault_enclosed h.sound
  line := by rw [lastLine_enclosed, h.line]
  first := ⟨'(', text.toList ++ [')'], by simp, by decide, by decide⟩
  last := ⟨symbol .leftParen :: ss, symbol .rightParen, rfl, by simp⟩
  derives := h.derives.enclosed

theorem unary {s : Symbol} (hs : s ∈ Level.unaryOperators) (h : Reads text .unary ss e) :
    Reads (s.lexeme ++ text) .unary (symbol s :: ss) (.unary ⟨.symbol s, s.lexeme, 1⟩ e) where
  written := by simp [chars, h.written]
  legible := by
    refine ⟨trivial, ?_, h.legible⟩
    obtain ⟨d, ds, htext, -, hd⟩ := h.first
    intro c hc
    obtain rfl : d = c := by simpa [h.written, htext] using hc
    exact Symbol.ofChars?_append_eq_none hd
  sound := by simpa [isFault] using h.sound
  line := h.line
  first := by
    obtain ⟨c, hc, hclass⟩ := Symbol.first_unary hs
    exact ⟨c, text.toList, by simp [hc], hclass⟩
  last := by
    obtain ⟨init, s', rfl, hs'⟩ := h.last
    exact ⟨symbol s :: init, s', rfl, hs'⟩
  derives := .of_unary (Kind.isOneOf_iff.mpr ⟨s, hs, rfl⟩) h.derives

theorem binary {s : Symbol} (hs : s ∈ Level.binaryOperators) (hleft : Reads left .unary xs l)
    (hright : Reads right .unary ys r) :
    Reads (left ++ " " ++ s.lexeme ++ " " ++ right) .expression
      (xs ++ blank [' '] :: symbol s :: blank [' '] :: ys)
      (.binary l ⟨.symbol s, s.lexeme, 1⟩ r) where
  written := by simp [chars, hleft.written, hright.written]
  legible := by
    obtain ⟨c, cs, htext, hc, -⟩ := hright.first
    have hspaced := legible_spaced (s := s) hright.legible (hright.written.trans htext) hc
    refine hleft.legible.append_separated hspaced ?_ ?_ ?_
    · intro d hd
      obtain rfl : ' ' = d := by simpa [chars] using hd
      decide
    · intro run hrun
      obtain ⟨init, s', rfl, hs'⟩ := hleft.last
      exact absurd (by simpa using hrun) (hs' run)
    · intro body hbody
      simpa [isFault] using hleft.sound _ hbody
  sound := List.forall_mem_append.mpr ⟨hleft.sound, by simpa [isFault] using hright.sound⟩
  line := by
    rw [lastLine_append, hleft.line]
    exact hright.line
  first := by
    obtain ⟨c, cs, htext, hclass⟩ := hleft.first
    exact ⟨c, cs ++ ' ' :: (s.lexeme.toList ++ ' ' :: right.toList), by simp [htext], hclass⟩
  last := by
    obtain ⟨init, s', rfl, hs'⟩ := hright.last
    exact ⟨xs ++ blank [' '] :: symbol s :: blank [' '] :: init, s', by simp, hs'⟩
  derives := by
    rw [tokensFrom_append, hleft.line]
    exact hleft.derives.binary_of_unary hs rfl hright.derives

theorem digits {n : Nat} (h : n ≤ Numeral.positiveLimit) :
    Reads (Numeral.text n) .unary [integer (Numeral.digits n)]
      (.literal (.integer (Int64.ofNat n))) where
  written := by simp [chars, Numeral.toList_text]
  legible := by
    refine ⟨⟨Numeral.digits_ne_nil n, ?_⟩, by simp [EndsBefore], trivial⟩
    exact fun _ => Numeral.isDigit_of_mem_digits
  sound := by simp [isFault]
  line := rfl
  first := by
    obtain ⟨c, cs, hdigits⟩ := List.exists_cons_of_ne_nil (Numeral.digits_ne_nil n)
    have hc : c.isDigit = true := Numeral.isDigit_of_mem_digits (n := n) (by simp [hdigits])
    refine ⟨c, cs, by rw [Numeral.toList_text, hdigits], isBlank_of_isDigit hc, ?_⟩
    rintro rfl
    exact absurd hc (by decide)
  last := ⟨[], integer (Numeral.digits n), rfl, by simp⟩
  derives := by
    refine .primary (.of_meaning ?_)
    simp only [Token.meaning, String.toList_ofList, Numeral.readInteger_digits h]
    rfl

theorem keyword {k : Keyword} {v : Value} (h : Token.meaning ⟨.keyword k, k.lexeme, 1⟩ = .ok v) :
    Reads k.lexeme .unary [word k.lexeme.toList] (.literal v) where
  written := by simp [chars]
  legible := ⟨k.wellFormed_word, by simp [EndsBefore], trivial⟩
  sound := by simp [isFault]
  line := rfl
  first := by
    obtain ⟨c, cs, hlexeme, hc, -⟩ := k.wellFormed_word
    refine ⟨c, cs, hlexeme, isBlank_of_isLetter hc, ?_⟩
    rintro rfl
    exact absurd hc (by decide)
  last := ⟨[], _, rfl, by simp⟩
  derives := by
    have hkind : wordKind k.lexeme = .keyword k := by simp [wordKind, Keyword.ofLexeme?_lexeme]
    refine .primary (.of_meaning ?_)
    simpa [hkind] using h

theorem literal {v : Value} (h : v.Plain) :
    ∃ ss, Reads v.display .unary ss (Expr.literal v).reread := by
  cases v with
  | string text => exact h.elim
  | float x => exact h.elim
  | null => exact ⟨_, keyword (k := .nullWord) rfl⟩
  | boolean b =>
    cases b with
    | true => exact ⟨_, keyword (k := .trueWord) rfl⟩
    | false => exact ⟨_, keyword (k := .falseWord) rfl⟩
  | integer n =>
    have hdigits := digits (Numeral.natAbs_le_positiveLimit h)
    by_cases hn : n.toInt < 0
    · rw [Numeral.ofNat_natAbs_of_neg hn] at hdigits
      have hunary := hdigits.unary (s := .minus) (by decide)
      simp only [Value.display, Numeral.integerText, Expr.reread, if_pos hn]
      exact ⟨_, hunary⟩
    · rw [Numeral.ofNat_natAbs_of_nonneg hn] at hdigits
      simp only [Value.display, Numeral.integerText, Expr.reread, if_neg hn]
      exact ⟨_, hdigits⟩

end Reads

theorem Token.IsOperator.mapLine {symbols : List Symbol} {t : Token} (h : t.IsOperator symbols)
    (f : Nat → Nat) : ∃ s ∈ symbols, t.lexeme = s.lexeme ∧
      t.mapLine f = ⟨.symbol s, s.lexeme, f t.line⟩ := by
  obtain ⟨s, hs, hkind, hlexeme⟩ := h
  exact ⟨s, hs, hlexeme, by simp [Token.mapLine, hkind, hlexeme]⟩

theorem Expr.Plain.reads {e : Expr} (h : e.Plain) : ∃ ss, Reads e.render .unary ss e.reread := by
  induction e with
  | literal value => exact Reads.literal h
  | group inner ih =>
    obtain ⟨ss, hss⟩ := ih h
    exact ⟨_, hss.expression.enclosed⟩
  | unary operator operand ih =>
    obtain ⟨ss, hss⟩ := ih h.2
    obtain ⟨s, hs, hlexeme, hop⟩ := h.1.mapLine fun _ => 1
    have hunary := (hss.unary hs).expression.enclosed
    simp only [← String.append_assoc] at hunary
    rw [render, reread, hlexeme, hop]
    exact ⟨_, hunary⟩
  | binary left operator right ihleft ihright =>
    obtain ⟨xs, hxs⟩ := ihleft h.1
    obtain ⟨ys, hys⟩ := ihright h.2.2
    obtain ⟨s, hs, hlexeme, hop⟩ := h.2.1.mapLine fun _ => 1
    have hbinary := (hxs.binary hs hys).enclosed
    simp only [← String.append_assoc] at hbinary
    rw [render, reread, hlexeme, hop]
    exact ⟨_, hbinary⟩

theorem applyUnary_minus_neg {n : Int64} (h : n ≠ Int64.minValue) (line : Nat) :
    applyUnary (.fixed (.symbol .minus) line) (.integer (-n)) = .ok (.integer n) := by
  have hnegate := negateInteger_of_ne (neg_ne_minValue h) line
  rwa [Int64.neg_neg] at hnegate

theorem Expr.Plain.eval_reread {e : Expr} (h : e.Plain) :
    e.reread.eval = e.eval.mapError (RuntimeError.mapLine fun _ => 1) := by
  induction e with
  | literal value =>
    cases value with
    | integer n =>
      simp only [reread]
      split
      · exact applyUnary_minus_neg h 1
      · rfl
    | _ => rfl
  | group inner ih => exact ih h
  | unary operator operand ih =>
    simp only [reread, eval, ih h.2, mapError_bind, ← applyUnary_mapLine]
  | binary left operator right ihleft ihright =>
    simp only [reread, eval, ihleft h.1, ihright h.2.2, mapError_bind, applyBinary_mapLine]

theorem execute_render (e : Expr) (h : e.Plain) :
    (∀ v, e.eval = .ok v → (execute e.render).result = .ok v) ∧
    (∀ r, e.eval = .error r →
      (execute e.render).result = .error (.runtime (r.mapLine fun _ => 1))) ∧
    (∀ errors, (execute e.render).result ≠ .error (.scan errors)) ∧
    ∀ errors, (execute e.render).result ≠ .error (.parse errors) := by
  obtain ⟨ss, hss⟩ := h.reads
  have hresult := hss.expression.execute
  rw [h.eval_reread] at hresult
  rw [hresult]
  cases heval : e.eval with
  | ok v => simp [Except.mapError]
  | error r => simp [Except.mapError]

def negatedTwice : Expr :=
  .binary (.unary ⟨.symbol .minus, "-", 4⟩ (.literal (.integer (-5))))
    ⟨.symbol .doubleEqual, "==", 6⟩ (.unary ⟨.symbol .bang, "!", 7⟩ (.literal (.integer (-5))))

theorem execute_render_negatedTwice :
    negatedTwice.Plain ∧ negatedTwice.render = "((--5) == (!-5))" ∧
    negatedTwice.eval = .error (.invalidUnaryOperand "!" .integer 7) ∧
    (execute "((--5) == (!-5))").result =
      .error (.runtime (.invalidUnaryOperand "!" .integer 1)) := by
  have hfive : (-5 : Int64) ≠ Int64.minValue := by decide
  have hplain : negatedTwice.Plain :=
    ⟨⟨⟨.minus, by decide⟩, hfive⟩, ⟨.doubleEqual, by decide⟩, ⟨.bang, by decide⟩, hfive⟩
  have hrender : negatedTwice.render = "((--5) == (!-5))" := by decide +kernel
  have heval : negatedTwice.eval = .error (.invalidUnaryOperand "!" .integer 7) := by rfl
  have hresult := (execute_render negatedTwice hplain).2.1 _ heval
  rw [hrender] at hresult
  exact ⟨hplain, hrender, heval, hresult⟩

end ExpressionLanguage
