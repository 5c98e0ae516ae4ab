import ExpressionLanguage.Proofs.Grammar.Induction
import ExpressionLanguage.Proofs.Numeral.Signed

namespace ExpressionLanguage

open Numeral

namespace Cursor

def integerOutcome (t : Token) (after : Cursor) : Except Fault Int64 → Outcome
  | .ok n => (.ok (.literal (.integer n)), after)
  | .error .tooLarge =>
      (.ok (.literal .null), after.record (.literalTooLarge t.lexeme t.line))
  | .error .malformed => (.error (.malformedLiteral .integer t.lexeme t.line), after)

theorem integerOutcome_inj {t : Token} {after : Cursor} {r s : Except Fault Int64} :
    integerOutcome t after r = integerOutcome t after s ↔ r = s := by
  constructor
  · intro h
    unfold integerOutcome at h
    split at h <;> split at h <;> simp_all
  · rintro rfl
    rfl

theorem tokens_integerOutcome (t : Token) (after : Cursor) (r : Except Fault Int64) :
    (integerOutcome t after r).2.tokens = after.tokens := by
  unfold integerOutcome
  split <;> rfl

theorem isFatal_of_integerOutcome {t : Token} {after : Cursor} {r : Except Fault Int64}
    {err : ParseError} (h : (integerOutcome t after r).1 = .error err) : err.isFatal = true := by
  unfold integerOutcome at h
  split at h <;> cases h
  rfl

theorem literal_of_integer {c : Cursor} {t : Token} {rest : List Token}
    (htokens : c.tokens = t :: rest) (hkind : t.kind = .integer) :
    c.literal = integerOutcome t (c.past [t] rest) (readInteger t.lexeme.toList) := by
  simp only [literal, step?_of_tokens htokens, Token.meaning, hkind]
  cases readInteger t.lexeme.toList with
  | ok n => rfl
  | error fault => cases fault <;> rfl

end Cursor

theorem literal_integer_exact {c : Cursor} {t : Token} {rest : List Token}
    (htokens : c.tokens = t :: rest) (hkind : t.kind = .integer) :
    (∀ n : Int64, c.literal = (.ok (.literal (.integer n)), c.past [t] rest) ↔
      Denotes t.lexeme.toList n.toInt ∧ Within n.toInt) ∧
    (c.literal =
        (.ok (.literal .null), (c.past [t] rest).record (.literalTooLarge t.lexeme t.line)) ↔
      Overflows t.lexeme.toList) ∧
    (c.literal = (.error (.malformedLiteral .integer t.lexeme t.line), c.past [t] rest) ↔
      (¬ ∃ z, Denotes t.lexeme.toList z ∧ Within z) ∧ ¬ Overflows t.lexeme.toList) ∧
    (∀ err, c.literal.1 = .error err → err.isFatal = true) ∧
    c.literal.2.tokens = rest ∧
    ∀ n : Int64, Denotes (Value.integer n).display.toList n.toInt ∧ Within n.toInt ∧
      (t.lexeme = (Value.integer n).display →
        c.literal = (.ok (.literal (.integer n)), c.past [t] rest)) := by
  have hliteral := Cursor.literal_of_integer htokens hkind
  have hread (r : Except Fault Int64) :
      c.literal = Cursor.integerOutcome t (c.past [t] rest) r ↔
        readInteger t.lexeme.toList = r := by
    rw [hliteral, Cursor.integerOutcome_inj]
  have hinteger (n : Int64) : c.literal = (.ok (.literal (.integer n)), c.past [t] rest) ↔
      Denotes t.lexeme.toList n.toInt :=
    (hread (.ok n)).trans readInteger_eq_ok_iff
  refine ⟨?_, ?_, ?_, ?_, ?_, ?_⟩
  · intro n
    rw [hinteger, and_iff_left (within_toInt n)]
  · exact (hread (.error .tooLarge)).trans readInteger_eq_tooLarge_iff
  · exact (hread (.error .malformed)).trans readInteger_eq_malformed_iff
  · intro err herr
    rw [hliteral] at herr
    exact Cursor.isFatal_of_integerOutcome herr
  · rw [hliteral, Cursor.tokens_integerOutcome, Cursor.past_tokens]
  · intro n
    have hdisplay : Denotes (Value.integer n).display.toList n.toInt := denotes_integerText n
    refine ⟨hdisplay, within_toInt n, ?_⟩
    intro hlexeme
    rw [hinteger, hlexeme]
    exact hdisplay

def soleInteger (lexeme : String) : Cursor :=
  .start [⟨.integer, lexeme, 1⟩]

-- the least integer behind leading zeros, a letter behind a number that is too large by one, and
-- a letter behind the greatest integer
theorem literal_integer_exact_atTheLimits :
    (soleInteger "-009223372036854775808").literal.1 =
        .ok (.literal (.integer Int64.minValue)) ∧
    (soleInteger "+9223372036854775808e").literal.2.errors =
        [.literalTooLarge "+9223372036854775808e" 1] ∧
    (soleInteger "9223372036854775807e").literal.1 =
        .error (.malformedLiteral .integer "9223372036854775807e" 1) ∧
    ¬ Overflows "9223372036854775807e".toList := by
  have hleast : Denotes "-009223372036854775808".toList Int64.minValue.toInt :=
    ⟨⟨.minus, "009223372036854775808".toList, by decide, List.all_eq_true.mp (by decide)⟩, by rfl,
      by decide +kernel⟩
  have hbeyond : Overflows "+9223372036854775808e".toList :=
    ⟨⟨.plus, "9223372036854775808".toList, by decide, List.all_eq_true.mp (by decide)⟩, ['e'],
      by rfl, by decide +kernel⟩
  have hgreatest : (soleInteger "9223372036854775807e").literal =
      (.error (.malformedLiteral .integer "9223372036854775807e" 1),
        (soleInteger "9223372036854775807e").past
          [⟨.integer, "9223372036854775807e", 1⟩] []) := by
    rfl
  obtain ⟨hok, -⟩ := literal_integer_exact (c := soleInteger "-009223372036854775808") rfl rfl
  obtain ⟨-, htooLarge, -⟩ :=
    literal_integer_exact (c := soleInteger "+9223372036854775808e") rfl rfl
  obtain ⟨-, -, hmalformed, -⟩ :=
    literal_integer_exact (c := soleInteger "9223372036854775807e") rfl rfl
  refine ⟨?_, ?_, congrArg Prod.fst hgreatest, (hmalformed.mp hgreatest).2⟩
  · rw [(hok Int64.minValue).mpr ⟨hleast, within_toInt _⟩]
  · rw [htooLarge.mpr hbeyond]
    rfl

end ExpressionLanguage
