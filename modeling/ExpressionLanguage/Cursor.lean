import ExpressionLanguage.Diagnostic
import ExpressionLanguage.Expr.Basic
import ExpressionLanguage.Journal
import ExpressionLanguage.Token.Literal

/-!
Cursors: the tokens that are still to be read, with what reading them has brought up so far. The
end-of-input token and the end of the list are treated alike.
-/

namespace ExpressionLanguage

structure Cursor where
  tokens : List Token
  errors : List ParseError
  lastLine : Nat
  journal : List Entry
deriving Repr

/-- A tree, or the fatal error that stopped reading, and where reading stopped. -/
abbrev Outcome := Except ParseError Expr × Cursor

def Outcome.andThen (o : Outcome) (next : Expr → Cursor → Outcome) : Outcome :=
  match o with
  | (.ok e, c) => next e c
  | (.error e, c) => (.error e, c)

namespace Cursor

def start (tokens : List Token) : Cursor :=
  ⟨tokens, [], 1, []⟩

def record (c : Cursor) (e : ParseError) : Cursor :=
  { c with
    errors := c.errors ++ [e]
    journal := c.journal ++ [⟨.debug, .parser, e.message⟩] }

def step? (c : Cursor) : Option (Token × Cursor) :=
  match c.tokens with
  | [] => none
  | t :: rest => some (t, { c with tokens := rest, lastLine := t.line })

def take? (c : Cursor) (symbols : List Symbol) : Option (Token × Cursor) :=
  c.step?.filter fun (t, _) => t.kind.isOneOf symbols

theorem step?_eq_some_iff {c d : Cursor} {t : Token} :
    c.step? = some (t, d) ↔
      c.tokens = t :: d.tokens ∧ d.errors = c.errors ∧ d.lastLine = t.line ∧
        d.journal = c.journal := by
  obtain ⟨tokens, errors, lastLine, journal⟩ := c
  obtain ⟨tokens', errors', lastLine', journal'⟩ := d
  cases tokens with
  | nil => simp [step?]
  | cons u rest =>
      simp only [step?, Option.some.injEq, Prod.mk.injEq, Cursor.mk.injEq, List.cons.injEq]
      constructor
      · rintro ⟨rfl, rfl, rfl, rfl, rfl⟩
        simp
      · rintro ⟨⟨rfl, rfl⟩, rfl, rfl, rfl⟩
        simp

theorem take?_eq_some_iff {c d : Cursor} {t : Token} {symbols : List Symbol} :
    c.take? symbols = some (t, d) ↔
      c.step? = some (t, d) ∧ t.kind.isOneOf symbols = true := by
  simp [take?, Option.filter_eq_some_iff]

theorem length_of_step? {c d : Cursor} {t : Token} (h : c.step? = some (t, d)) :
    d.tokens.length < c.tokens.length := by
  rw [(step?_eq_some_iff.mp h).1]
  exact Nat.lt_succ_self _

theorem length_of_take? {c d : Cursor} {t : Token} {symbols : List Symbol}
    (h : c.take? symbols = some (t, d)) : d.tokens.length < c.tokens.length :=
  length_of_step? (take?_eq_some_iff.mp h).1

def missingError (c : Cursor) : ParseError :=
  let atEnd := .expectedExpression "end of input" c.lastLine
  match c.tokens with
  | [] => atEnd
  | t :: _ =>
      if t.kind = .endOfInput then atEnd
      else .expectedExpression ("'" ++ t.lexeme ++ "'") t.line

def missing (c : Cursor) : Outcome :=
  (.ok (.literal .null), c.record c.missingError)

def literal (c : Cursor) : Outcome :=
  match c.step? with
  | none => c.missing
  | some (t, after) =>
      match t.meaning with
      | .ok v => (.ok (.literal v), after)
      | .error .tooLarge =>
          (.ok (.literal .null), after.record (.literalTooLarge t.lexeme t.line))
      | .error .malformed => (.error (.malformedLiteral t.kind t.lexeme t.line), after)

def atom (c : Cursor) : Outcome :=
  match c.tokens with
  | [] => c.missing
  | t :: _ => if t.kind.isLiteral then c.literal else c.missing

theorem length_missing (c : Cursor) : c.missing.2.tokens.length ≤ c.tokens.length :=
  Nat.le_refl _

theorem length_literal (c : Cursor) : c.literal.2.tokens.length ≤ c.tokens.length := by
  unfold literal
  split
  · exact c.length_missing
  · rename_i t after h
    have hlt := length_of_step? h
    split <;> exact Nat.le_of_lt hlt

theorem length_atom (c : Cursor) : c.atom.2.tokens.length ≤ c.tokens.length := by
  unfold atom
  split
  · exact c.length_missing
  · split
    · exact c.length_literal
    · exact c.length_missing

end Cursor

end ExpressionLanguage
