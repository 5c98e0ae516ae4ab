import ExpressionLanguage.Proofs.Numeral.Float
import ExpressionLanguage.Token.Literal

namespace ExpressionLanguage

def Kind.literals : List Kind :=
  [.string, .integer, .float, .keyword .trueWord, .keyword .falseWord, .keyword .nullWord]

theorem Kind.mem_literals_iff {kind : Kind} : kind ∈ literals ↔ kind.isLiteral = true := by
  cases kind with
  | keyword k => cases k <;> decide
  | symbol s => simp [literals, isLiteral]
  | _ => decide

namespace Token

variable {t : Token} {v : Value}

inductive StandsFor (t : Token) : Value → Prop
  | string : t.kind = .string → t.StandsFor (.string t.lexeme)
  | integer {n} : t.kind = .integer → Numeral.Denotes t.lexeme.toList n.toInt →
      t.StandsFor (.integer n)
  | float {x} : t.kind = .float → Numeral.DenotesFloat t.lexeme.toList x → t.StandsFor (.float x)
  | trueWord : t.kind = .keyword .trueWord → t.lexeme = "true" → t.StandsFor (.boolean true)
  | falseWord : t.kind = .keyword .falseWord → t.lexeme = "false" → t.StandsFor (.boolean false)
  | nullWord : t.kind = .keyword .nullWord → t.StandsFor .null

theorem StandsFor.mem_literals (h : t.StandsFor v) : t.kind ∈ Kind.literals := by
  cases h <;> simp_all [Kind.literals]

theorem boolean_eq_ok_iff {b : Bool} :
    t.boolean b = .ok v ↔ t.lexeme = (Value.boolean b).display ∧ v = .boolean b := by
  unfold boolean
  split <;> simp_all [eq_comm]

theorem meaning_of_standsFor (h : t.StandsFor v) : t.meaning = .ok v := by
  cases h with
  | string hkind => simp [meaning, hkind]
  | integer hkind h =>
    simp [meaning, hkind, Numeral.readInteger_eq_ok_iff.mpr h, Except.map]
  | float hkind h => simp [meaning, hkind, Numeral.readFloat?_eq_some_iff.mpr h]
  | trueWord hkind h | falseWord hkind h =>
    simp only [meaning, hkind]
    exact boolean_eq_ok_iff.mpr ⟨h, rfl⟩
  | nullWord hkind => simp [meaning, hkind]

theorem standsFor_of_meaning (h : t.meaning = .ok v) : t.StandsFor v := by
  unfold meaning at h
  split at h
  · rename_i hkind
    obtain rfl := Except.ok.inj h
    exact .string hkind
  · rename_i hkind
    cases hread : Numeral.readInteger t.lexeme.toList with
    | error fault => simp [hread, Except.map] at h
    | ok n =>
      obtain rfl : .integer n = v := by simpa [hread, Except.map] using h
      exact .integer hkind (Numeral.readInteger_eq_ok_iff.mp hread)
  · rename_i hkind
    split at h
    · rename_i x hread
      obtain rfl := Except.ok.inj h
      exact .float hkind (Numeral.readFloat?_eq_some_iff.mp hread)
    · cases h
  · rename_i hkind
    obtain ⟨hlexeme, rfl⟩ := boolean_eq_ok_iff.mp h
    exact .trueWord hkind hlexeme
  · rename_i hkind
    obtain ⟨hlexeme, rfl⟩ := boolean_eq_ok_iff.mp h
    exact .falseWord hkind hlexeme
  · rename_i hkind
    obtain rfl := Except.ok.inj h
    exact .nullWord hkind
  · cases h

theorem standsFor_iff : t.StandsFor v ↔ t.meaning = .ok v :=
  ⟨meaning_of_standsFor, standsFor_of_meaning⟩

end Token

end ExpressionLanguage
