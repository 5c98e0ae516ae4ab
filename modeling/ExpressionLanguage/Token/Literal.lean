import ExpressionLanguage.Numeral.Float
import ExpressionLanguage.Token.Basic
import ExpressionLanguage.Value

namespace ExpressionLanguage

def Token.boolean (t : Token) (b : Bool) : Except Numeral.Fault Value :=
  if t.lexeme = (Value.boolean b).display then .ok (.boolean b) else .error .malformed

def Token.meaning (t : Token) : Except Numeral.Fault Value :=
  match t.kind with
  | .string => .ok (.string t.lexeme)
  | .integer => (Numeral.readInteger t.lexeme.toList).map .integer
  | .float =>
      match Numeral.readFloat? t.lexeme.toList with
      | some x => .ok (.float x)
      | none => .error .malformed
  | .keyword .trueWord => t.boolean true
  | .keyword .falseWord => t.boolean false
  | .keyword .nullWord => .ok .null
  | _ => .error .malformed

theorem Token.isLiteral_of_meaning {t : Token} {v : Value} (h : t.meaning = .ok v) :
    t.kind.isLiteral = true := by
  obtain ⟨kind, lexeme, line⟩ := t
  cases kind with
  | keyword k => cases k <;> simp_all [meaning, Kind.isLiteral]
  | _ => simp_all [meaning, Kind.isLiteral]

end ExpressionLanguage
