import ExpressionLanguage.Proofs.Numeral.Float
import ExpressionLanguage.Proofs.Numeral.Integer
import ExpressionLanguage.Proofs.Scan.Lines
import ExpressionLanguage.Token.Literal

namespace ExpressionLanguage

namespace Token

variable {t : Token}

def denoted (t : Token) : Nat :=
  Numeral.denoted t.lexeme.toList

structure IsNumeral (t : Token) : Prop where
  kind : t.kind = .integer
  ne_nil : t.lexeme.toList ≠ []
  isDigit : ∀ c ∈ t.lexeme.toList, c.isDigit = true

theorem IsNumeral.meaning_of_le (h : t.IsNumeral) (hle : t.denoted ≤ 9223372036854775807) :
    t.meaning = .ok (.integer (Int64.ofNat t.denoted)) := by
  have hread := Numeral.readInteger_of_le h.ne_nil h.isDigit hle
  simp [meaning, h.kind, hread, Except.map, denoted]

theorem IsNumeral.meaning_of_lt (h : t.IsNumeral) (hlt : 9223372036854775807 < t.denoted) :
    t.meaning = .error .tooLarge := by
  have hread := Numeral.readInteger_of_lt h.ne_nil h.isDigit hlt
  simp [meaning, h.kind, hread, Except.map]

theorem IsNumeral.meaning_ne_malformed (h : t.IsNumeral) : t.meaning ≠ .error .malformed := by
  rcases Nat.lt_or_ge (9223372036854775807) t.denoted with hlt | hle
  · simp [h.meaning_of_lt hlt]
  · simp [h.meaning_of_le hle]

structure WellSpelled (t : Token) : Prop where
  readable : t.kind.isLiteral = true → t.meaning ≠ .error .malformed
  numeral : t.kind = .integer → t.IsNumeral

end Token

theorem Segment.wellSpelled_word (name : List Char) (line : Nat) :
    (Token.mk (wordKind (String.ofList name)) (String.ofList name) line).WellSpelled := by
  unfold wordKind
  split
  · rename_i k hk
    have hlexeme := Keyword.ofLexeme?_eq_some_iff.mp hk
    refine ⟨?_, by simp⟩
    rw [← hlexeme]
    intro hliteral
    cases k with
    | trueWord | falseWord | nullWord =>
      simp [Token.meaning, Token.boolean, Value.display, Keyword.lexeme]
    | _ => simp [Kind.isLiteral] at hliteral
  · exact ⟨by simp [Kind.isLiteral], by simp⟩

theorem Segment.wellSpelled_of_token? {s : Segment} {t : Token} {line : Nat} (hs : s.WellFormed)
    (h : s.token? line = some t) : t.WellSpelled := by
  cases s with
  | text body =>
    obtain rfl := Option.some.inj h
    exact ⟨by simp [Token.meaning], by simp⟩
  | integer digits =>
    obtain rfl := Option.some.inj h
    have hnumeral : Token.IsNumeral ⟨.integer, String.ofList digits, line⟩ :=
      ⟨rfl, by simpa using hs.1, by simpa using hs.2⟩
    exact ⟨fun _ => hnumeral.meaning_ne_malformed, fun _ => hnumeral⟩
  | float whole fraction =>
    obtain rfl := Option.some.inj h
    obtain ⟨⟨hne, hwhole⟩, -, hfraction⟩ := hs
    obtain ⟨x, hx⟩ := Option.isSome_iff_exists.mp
      (Numeral.readFloat?_point hne hwhole hfraction)
    exact ⟨by simp [Token.meaning, hx], by simp⟩
  | word name =>
    obtain rfl := Option.some.inj h
    exact wellSpelled_word name line
  | symbol s =>
    obtain rfl := Option.some.inj h
    exact ⟨by simp [Kind.isLiteral], by simp⟩
  | _ => cases h

theorem scan_wellSpelled {source : String} {t : Token} (ht : t ∈ (scan source).tokens) :
    t.WellSpelled := by
  rw [scan_tokens, List.mem_append] at ht
  rcases ht with ht | ht
  · obtain ⟨s, hs, line, htoken⟩ := mem_tokensFrom ht
    exact Segment.wellSpelled_of_token? ((legible_segments source.toList).wellFormed s hs) htoken
  · obtain rfl := List.mem_singleton.mp ht
    exact ⟨by simp [Token.fixed, Kind.isLiteral], by simp [Token.fixed]⟩

end ExpressionLanguage
